import KiwiFront.Proofs.Peg.Repetition

/-!
# What an error leaves behind

An error unwinds through all evaluations in progress and leaves the state as it is. A
memoized rule has remembered nothing then, so that it meets the error again. A growing
rule has remembered what it had grown to, at the least the failure that it began with. The
next evaluation takes that for its outcome, and the error is gone.
-/

namespace KiwiFront.Peg

variable {grammar : Grammar}

/-- An error unwinds through the evaluation of a rule: it ends it in some state. -/
def Grammar.Unwinds (grammar : Grammar) (setup : Setup) (error : ParseError)
    (ended : State grammar) (bound : Nat) (rule : grammar.Rule) (start : State grammar) : Prop :=
  grammar.runRule setup bound rule start = (.fatal error, ended)

/-- An outcome of the rule itself is remembered at a mark, to be taken for the outcome of the
next evaluation there. -/
def Setup.Leaves (setup : Setup) (rule : grammar.Rule) (mark : Nat) (ended : State grammar) :
    Prop :=
  setup.Remembers (grammar.mode rule) ∧ ∃ outcome : Cached (grammar.Value rule),
    ended.memo.find? (grammar.name rule) mark = some (outcome.tagged rule)

namespace Setup.Leaves

variable {setup : Setup} {rule : grammar.Rule} {ended : State grammar}

/-- Where an outcome is left behind, the next evaluation ends without an error. -/
theorem settled {mark bound : Nat} (leaves : setup.Leaves rule mark ended) (error : ParseError) :
    (grammar.runRule setup bound rule (ended.reset mark)).1 ≠ .fatal error := by
  obtain ⟨remembers, outcome, found⟩ := leaves
  cases bound with
  | zero => exact nofun
  | succ bound =>
      have foundHere : (ended.reset mark).memo.find? (grammar.name rule)
          (ended.reset mark).cursor = some (outcome.tagged rule) := by
        rw [State.reset_memo, State.reset_cursor]
        exact found
      have replayed : grammar.runRule setup (bound + 1) rule (ended.reset mark) = _ :=
        Run.inMode_of_tagged remembers foundHere
      rw [replayed]
      cases outcome <;> exact nofun

/-- A growing rule that was not replayed leaves an outcome behind, however it ends. -/
theorem of_growing (growing : grammar.mode rule = .leftRecursive) {bound : Nat}
    {start : State grammar} {outcome : Outcome (grammar.Value rule)}
    (evaluated : grammar.runRule setup (bound + 1) rule start = (outcome, ended))
    (missing : start.memo.find? (grammar.name rule) start.cursor = none) :
    setup.Leaves rule start.cursor ended := by
  have inner := fun base low => Expression.run_keeps State.Beyond.lasting setup
    (grammar.runRule_beyond setup base low bound) bound (grammar.body rule)
  have same : Run.leftRecursive setup rule
      ((grammar.body rule).run setup (grammar.runRule setup bound) bound) start =
        (outcome, ended) := by
    rw [← evaluated, Grammar.runRule, Run.inMode, growing]
  obtain ⟨left, recorded⟩ : ∃ left, Recorded rule start.cursor
      (Run.leftRecursive setup rule
        ((grammar.body rule).run setup (grammar.runRule setup bound) bound) start) left :=
    Run.leftRecursive_recorded inner missing
  rw [same] at recorded
  exact ⟨.inl growing, left, recorded.found⟩

end Setup.Leaves

namespace Lockstep

variable {setup : Setup} {error : ParseError} {ended : State grammar}

/-- The comparison of the evaluations that an error ends with what comes of them behind it.
All other errors are left aside. -/
def unwound (setup : Setup) (error : ParseError) (ended : State grammar) : Lockstep grammar :=
  again setup (fun _ => True) ended.memo ended.furthest fun other reached =>
    ¬ (other = error ∧ reached = ended)

theorem unwound_not_lost : ¬ (unwound setup error ended).Lost ended :=
  fun lost => lost ⟨Setup.covers_of_extends (.refl _), Nat.le_refl _⟩

/-- A remembered rule that the error ends is ended by an error again if it has left nothing
behind. -/
theorem unwound_fatal {bound : Nat} {rule : grammar.Rule} {start twin : State grammar}
    (unwinds : grammar.Unwinds setup error ended (bound + 1) rule start)
    (remembers : setup.Remembers (grammar.mode rule))
    (clean : ¬ setup.Leaves rule start.cursor ended)
    (body : (unwound setup error ended).Follows
      ((grammar.body rule).run setup (grammar.runRule setup bound) bound)
      ((grammar.body rule).run setup (grammar.runRule setup bound) bound))
    (related : (unwound setup error ended).Relates start twin) :
    ∃ other reached, grammar.runRule setup (bound + 1) rule twin = (.fatal other, reached) := by
  have between := body _ _ ((unwound setup error ended).log
    (.entered (grammar.name rule) start.cursor) ((unwound setup error ended).log
      (.memoMissed (grammar.name rule) start.cursor false) related))
  obtain ⟨cursor, memo, _⟩ := related
  cases found : twin.memo.find? (grammar.name rule) twin.cursor with
  | some entry =>
      rcases entry.tagged_or_other rule with ⟨outcome, rfl⟩ | ⟨owner, value, stop, other, rfl⟩
      · rw [memo, cursor] at found
        exact absurd ⟨remembers, outcome, found⟩ clean
      · exact ⟨_, _, Run.inMode_of_other remembers found other⟩
  | none =>
      have extended := (grammar.runRule_extends setup (bound + 1) rule start).1
      rw [show grammar.runRule setup (bound + 1) rule start = _ from unwinds] at extended
      have missing : start.memo.find? (grammar.name rule) start.cursor = none := by
        rw [memo, cursor] at found
        exact extended.find?_eq_none found
      rcases remembers with growing | ⟨memoized, packrat⟩
      -- A growing rule would have left its seed, at least.
      · exact absurd (.of_growing growing unwinds missing) clean
      · have unwinds : grammar.runRule setup (bound + 1) rule start = (.fatal error, ended) :=
          unwinds
        simp only [Grammar.runRule, Run.inMode, memoized, Run.memoized, if_pos packrat,
          Run.replay?_of_missing missing] at unwinds
        simp only [Grammar.runRule, Run.inMode, memoized, Run.memoized, if_pos packrat,
          Run.replay?_of_missing found]
        rw [cursor]
        generalize Expression.run _ _ _ _ _ = left at between unwinds
        generalize Expression.run _ _ _ _ _ = right at between ⊢
        obtain ⟨outcome, reached⟩ := left
        cases outcome with
        | success | failure | unfinished => cases unwinds
        | fatal other =>
            cases unwinds
            cases between with
            | lost lost => exact absurd lost unwound_not_lost
            | spared spared => exact absurd ⟨rfl, rfl⟩ spared
            | fatal => exact ⟨_, _, rfl⟩

/-- Where an error has left no outcome behind, every evaluation that it has ended comes to
an error again. -/
theorem unwound_follows
    (clean : ∀ bound rule start, grammar.Unwinds setup error ended bound rule start ->
      ¬ setup.Leaves rule start.cursor ended) (bound : Nat) (rule : grammar.Rule) :
    (unwound setup error ended).Follows (grammar.runRule setup bound rule)
      (grammar.runRule setup bound rule) := by
  induction bound generalizing rule with
  | zero => exact fun _ _ _ => .unfinished
  | succ bound inductionHypothesis =>
      have body := Expression.run_follows (unwound setup error ended) setup setup rfl rfl
        (fun rule _ => inductionHypothesis rule) (again_keeps bound) (Nat.le_refl bound)
        (grammar.body rule) (Expression.calls_of_forall (fun _ => trivial) _)
      by_cases remembers : setup.Remembers (grammar.mode rule)
      · intro start twin related
        by_cases failed : ∃ other, (grammar.runRule setup (bound + 1) rule start).1 = .fatal other
        · obtain ⟨other, fatal⟩ := failed
          by_cases same : grammar.Unwinds setup error ended (bound + 1) rule start
          · obtain ⟨later, reached, again⟩ :=
              unwound_fatal same remembers (clean _ _ _ same) body related
            rw [show grammar.runRule setup (bound + 1) rule start = _ from same, again]
            exact .fatal trivial
          · unfold Grammar.Unwinds at same
            generalize grammar.runRule setup (bound + 1) rule start = left at fatal same ⊢
            obtain ⟨outcome, reached⟩ := left
            cases fatal
            refine .spared fun both => same ?_
            rw [both.1, both.2]
        · exact again_settled trivial remembers related fun other fatal => failed ⟨other, fatal⟩
      · exact again_unremembered remembers body

end Lockstep

namespace Grammar

/-- An error that has unwound through some evaluations comes up again in each of them, tried
from the same mark, if and only if it has left no outcome of any of them behind. A rule that
has left one never ends with an error the next time, and a growing rule that was not replayed
always leaves one. -/
theorem fatal_again_iff (setup : Setup) (error : ParseError) (ended : State grammar) :
    ((∀ bound rule start, grammar.Unwinds setup error ended bound rule start ->
        ∃ other, (grammar.runRule setup bound rule (ended.reset start.cursor)).1 = .fatal other) ↔
      ∀ bound rule start, grammar.Unwinds setup error ended bound rule start ->
        ¬ setup.Leaves rule start.cursor ended) ∧
    ∀ bound rule start, grammar.Unwinds setup error ended bound rule start ->
      (setup.Leaves rule start.cursor ended -> ∀ other,
        (grammar.runRule setup bound rule (ended.reset start.cursor)).1 ≠ .fatal other) ∧
      (grammar.mode rule = .leftRecursive ->
        start.memo.find? (grammar.name rule) start.cursor = none ->
        setup.Leaves rule start.cursor ended) := by
  refine ⟨⟨?_, ?_⟩, ?_⟩
  · intro again bound rule start unwinds leaves
    obtain ⟨other, fatal⟩ := again bound rule start unwinds
    exact leaves.settled other fatal
  · intro clean bound rule start unwinds
    have far := (grammar.runRule_extends setup bound rule start).2
    rw [show grammar.runRule setup bound rule start = _ from unwinds] at far
    have related : (Lockstep.unwound setup error ended).Relates start
        (ended.reset start.cursor) := by
      refine ⟨State.reset_cursor _ _, State.reset_memo _ _, ?_⟩
      rw [State.reset_furthest]
      exact (Nat.max_eq_left far).symm
    have between := Lockstep.unwound_follows clean bound rule start _ related
    rw [show grammar.runRule setup bound rule start = _ from unwinds] at between
    generalize grammar.runRule setup bound rule (ended.reset start.cursor) = last at between ⊢
    cases between with
    | lost lost => exact absurd lost Lockstep.unwound_not_lost
    | spared spared => exact absurd ⟨rfl, rfl⟩ spared
    | fatal => exact ⟨_, rfl⟩
  · intro bound rule start unwinds
    refine ⟨Setup.Leaves.settled, fun growing missing => ?_⟩
    cases bound with
    | zero => cases unwinds
    | succ bound => exact .of_growing growing unwinds missing

end Grammar

end KiwiFront.Peg
