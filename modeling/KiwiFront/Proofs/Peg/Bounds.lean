import KiwiFront.Proofs.Peg.Lockstep

/-!
# Bounds do not matter

An evaluation that ends within some bound ends in the same way within every larger
one. A bound can thus only keep an evaluation from ending.
-/

namespace KiwiFront.Peg

variable {grammar : Grammar} {Result : Type}

/-- Whenever the first run ends, the second one ends in the same way. -/
def Run.Within (run larger : Run grammar Result) : Prop :=
  ∀ state, (run state).1 ≠ .unfinished -> larger state = run state

/-- States correspond only to themselves. -/
def Lockstep.same (grammar : Grammar) : Lockstep grammar where
  Relates first second := second = first
  Lost _ := False
  Spared _ _ := False
  Errors error first other second := other = error ∧ second = first
  cursor related := congrArg State.cursor related
  moveTo mark related := congrArg (State.moveTo · mark) related
  log event related := congrArg (State.log · event) related
  consume related := congrArg State.consume related
  errors _ related := ⟨rfl, related⟩
  lasting := .never

theorem Lockstep.same_follows_iff {run larger : Run grammar Result} :
    (same grammar).Follows run larger ↔ run.Within larger := by
  constructor
  · intro follows state ends
    have between := follows state state rfl
    generalize run state = left at between ends ⊢
    generalize larger state = right at between ⊢
    cases between with
    | unfinished => exact absurd rfl ends
    | lost lost => exact lost.elim
    | spared spared => exact spared.elim
    | success related | failure related => rw [show _ = _ from related]
    | fatal alike => rw [alike.1, alike.2]
  · intro within state other related
    rw [show other = state from related]
    have equal := within state
    generalize run state = left at equal ⊢
    obtain ⟨outcome, reached⟩ := left
    cases outcome with
    | success => rw [equal nofun]; exact .success rfl
    | failure => rw [equal nofun]; exact .failure rfl
    | fatal => rw [equal nofun]; exact .fatal ⟨rfl, rfl⟩
    | unfinished => exact .unfinished

theorem Run.Within.inMode {rule : grammar.Rule} {body larger : Run grammar (grammar.Value rule)}
    (setup : Setup) (inner : body.Within larger) :
    (Run.inMode setup rule body).Within (Run.inMode setup rule larger) := by
  rw [← Lockstep.same_follows_iff] at inner ⊢
  refine .inMode ?_ ?_ (fun _ _ => False.elim) rfl rfl inner fun _ => False.elim
  · intro left right related
    rw [show right = left from related]
  · intro _ _ _ _ left right outcome related
    exact congrArg (State.remember · _ _ outcome) related

namespace Grammar

theorem runRule_within (setup : Setup) {low high : Nat} (enough : low ≤ high)
    (rule : grammar.Rule) :
    (grammar.runRule setup low rule).Within (grammar.runRule setup high rule) := by
  induction low generalizing high rule with
  | zero => exact fun _ ends => absurd rfl ends
  | succ low inductionHypothesis =>
      obtain ⟨high, rfl⟩ : ∃ rest, high = rest + 1 := ⟨high - 1, by omega⟩
      have smaller := Nat.le_of_succ_le_succ enough
      refine Run.Within.inMode setup (Lockstep.same_follows_iff.1 ?_)
      exact Expression.run_follows (Lockstep.same grammar) setup setup rfl rfl
        (fun rule _ => Lockstep.same_follows_iff.2 (inductionHypothesis smaller rule))
        (fun _ _ lost => lost) smaller _ (Expression.calls_of_forall (fun _ => trivial) _)

/-- Two bounds that both let an evaluation end give the same end. -/
theorem runRule_eq_of_ends {setup : Setup} {bound other : Nat} {rule : grammar.Rule}
    {state : State grammar} (ends : (grammar.runRule setup bound rule state).1 ≠ .unfinished)
    (endsToo : (grammar.runRule setup other rule state).1 ≠ .unfinished) :
    grammar.runRule setup bound rule state = grammar.runRule setup other rule state := by
  rcases Nat.le_total bound other with le | le
  · exact (grammar.runRule_within setup le rule state ends).symm
  · exact grammar.runRule_within setup le rule state endsToo

end Grammar

end KiwiFront.Peg
