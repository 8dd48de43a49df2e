import KiwiFront.Proofs.Peg.Bounds
import KiwiFront.Proofs.Peg.Progress
import KiwiFront.Proofs.Peg.Repetition

/-!
# Packrat parsing

Whether plain outcomes are remembered makes no difference to how rules end. The parser
that remembers them is compared with one that forgets them, in states that agree on the
outcomes of growing rules. What the first one has remembered beyond those `Stands`: the
other one would come to it by evaluating the rule now.

Growing rules are why this needs an argument. While such a rule grows, its own outcome is
replaced, and what was remembered on the strength of the old one would stand no longer. In
a layered grammar nothing of the kind is remembered, since growing rules reach only rules
that do not depend on them.
-/

namespace KiwiFront.Peg

variable {grammar : Grammar}

/-- A grammar whose growing rules call only each other and `flat` ones, which call flat
rules again. Rules that do not grow leave the cursor in place where they fail. -/
structure Grammar.Layered (grammar : Grammar) (flat : grammar.Rule -> Prop) : Prop where
  injective : ∀ rule other, grammar.name rule = grammar.name other -> rule = other
  steady : ∀ rule, flat rule -> grammar.mode rule ≠ .leftRecursive
  flatCalls : ∀ rule, flat rule -> (grammar.body rule).Calls flat
  growingCalls : ∀ rule, grammar.mode rule = .leftRecursive ->
    (grammar.body rule).Calls fun other => flat other ∨ grammar.mode other = .leftRecursive
  restoring : ∀ rule, grammar.mode rule ≠ .leftRecursive -> (grammar.body rule).Restoring

/-- What a rule can reach: a flat rule only flat ones. -/
def Grammar.Reach {grammar : Grammar} (flat : grammar.Rule -> Prop) (rule other : grammar.Rule) :
    Prop :=
  flat rule -> flat other

namespace Grammar.Layered

variable {flat : grammar.Rule -> Prop}

theorem reach_closed (layered : grammar.Layered flat) (rule other : grammar.Rule)
    (reached : Reach flat rule other) : (grammar.body other).Calls (Reach flat rule) := by
  by_cases isFlat : flat rule
  · have same : Reach flat rule = flat := by
      ext third
      exact ⟨fun reached => reached isFlat, fun flatToo _ => flatToo⟩
    rw [same]
    exact layered.flatCalls other (reached isFlat)
  · exact Expression.calls_of_forall (fun _ flatRule => absurd flatRule isFlat) _

end Grammar.Layered

/-- Evaluating a rule at a mark gives an outcome and changes nothing but the cursor, in
every state that remembers what a store does and has come far enough. -/
def Setup.Stands (setup : Setup) (flat : grammar.Rule -> Prop)
    (base : MemoStore grammar.Stored) (furthest : Nat)
    (rule : grammar.Rule) (mark : Nat) (outcome : Cached (grammar.Value rule)) : Prop :=
  ∃ bound, ∀ state : State grammar, state.cursor = mark ->
    setup.Covers (Grammar.Reach flat rule) state.memo base -> furthest ≤ state.furthest ->
      ∃ events, grammar.runRule setup bound rule state =
        (outcome.toOutcome, { state with cursor := outcome.stopFrom mark, events := events })

namespace Setup.Stands

variable {setup : Setup} {flat : grammar.Rule -> Prop}
  {base wider : MemoStore grammar.Stored} {furthest further : Nat}
  {rule : grammar.Rule} {mark : Nat} {outcome : Cached (grammar.Value rule)}

theorem mono (stands : setup.Stands flat base furthest rule mark outcome)
    (extended : wider.Extends base) (le : furthest ≤ further) :
    setup.Stands flat wider further rule mark outcome := by
  obtain ⟨bound, again⟩ := stands
  refine ⟨bound, fun state here covers far => again state here ?_ (Nat.le_trans le far)⟩
  exact covers.trans (Setup.covers_of_extends extended)

/-- What an evaluation has come to stands from its end on. -/
theorem of_run (layered : grammar.Layered flat) {bound : Nat} {start reached : State grammar}
    (before : grammar.runRule setup bound rule start = (outcome.toOutcome, reached))
    (stop : reached.cursor = outcome.stopFrom start.cursor) :
    setup.Stands flat reached.memo reached.furthest rule start.cursor outcome := by
  refine ⟨bound, fun later here covers far => ?_⟩
  have settled : ∀ error, outcome.toOutcome ≠ .fatal error := by
    cases outcome <;> exact fun _ => nofun
  have ends : outcome.toOutcome ≠ .unfinished := by
    cases outcome <;> exact nofun
  have again := Grammar.runRule_again (layered.reach_closed rule) (fun isFlat => isFlat) before
    settled ends here covers far
  rw [stop] at again
  exact again

/-- A flat rule does not depend on anything remembered, unless plain outcomes are. -/
theorem of_flat (layered : grammar.Layered flat) (forgets : setup.packrat = false)
    (isFlat : flat rule) (stands : setup.Stands flat base furthest rule mark outcome) :
    setup.Stands flat wider furthest rule mark outcome := by
  obtain ⟨bound, again⟩ := stands
  refine ⟨bound, fun state here _ far => again state here ?_ far⟩
  intro other reached remembers
  rcases remembers with growing | ⟨_, packrat⟩
  · exact absurd growing (layered.steady other (reached isFlat))
  · rw [forgets] at packrat
    cases packrat

end Setup.Stands

/-- The state of a parser that forgets plain outcomes and that of one that remembers them.
What the second one has remembered stands for the first one. -/
structure Paired (setup : Setup) (flat : grammar.Rule -> Prop)
    (base : MemoStore grammar.Stored) (off on : State grammar) :
    Prop where
  cursor : on.cursor = off.cursor
  furthest : on.furthest = off.furthest
  extended : off.memo.Extends base
  growing : ∀ rule, grammar.mode rule = .leftRecursive -> ∀ mark,
    on.memo.find? (grammar.name rule) mark = off.memo.find? (grammar.name rule) mark
  standing : ∀ rule, grammar.mode rule = .memoized -> ∀ mark entry,
    on.memo.find? (grammar.name rule) mark = some entry ->
      ∃ outcome : Cached (grammar.Value rule), entry = outcome.tagged rule ∧
        setup.Stands flat base off.furthest rule mark outcome

namespace Paired

variable {setup : Setup} {flat : grammar.Rule -> Prop}
  {base : MemoStore grammar.Stored} {off on : State grammar}

theorem moveTo (paired : Paired setup flat base off on) (mark : Nat) :
    Paired setup flat base (off.moveTo mark) (on.moveTo mark) :=
  ⟨rfl, paired.furthest, paired.extended, paired.growing, paired.standing⟩

/-- The events of the two states need not agree. -/
theorem withEvents (paired : Paired setup flat base off on) (offEvents onEvents : List Event) :
    Paired setup flat base { off with events := offEvents } { on with events := onEvents } :=
  ⟨paired.cursor, paired.furthest, paired.extended, paired.growing, paired.standing⟩

theorem consume (paired : Paired setup flat base off on) :
    Paired setup flat base off.consume on.consume := by
  refine ⟨congrArg (· + 1) paired.cursor, ?_, paired.extended, paired.growing, ?_⟩
  · rw [State.consume_furthest, State.consume_furthest, paired.furthest, paired.cursor]
  · intro rule memoized mark entry found
    obtain ⟨outcome, tagged, stands⟩ := paired.standing rule memoized mark entry found
    exact ⟨outcome, tagged, stands.mono (.refl _) (Nat.le_max_left _ _)⟩

/-- What stands for a store stands for one with more outcomes. -/
theorem widen (paired : Paired setup flat base off on) : Paired setup flat off.memo off on := by
  refine ⟨paired.cursor, paired.furthest, .refl _, paired.growing, ?_⟩
  intro rule memoized mark entry found
  obtain ⟨outcome, tagged, stands⟩ := paired.standing rule memoized mark entry found
  exact ⟨outcome, tagged, stands.mono paired.extended (Nat.le_refl _)⟩

/-- Only the second parser remembers a plain outcome. -/
theorem remember (layered : grammar.Layered flat) (paired : Paired setup flat base off on)
    {rule : grammar.Rule} (memoized : grammar.mode rule = .memoized) {mark : Nat}
    {outcome : Cached (grammar.Value rule)}
    (stands : setup.Stands flat base off.furthest rule mark outcome) :
    Paired setup flat base off
      (on.remember (grammar.name rule) mark (outcome.tagged rule)) := by
  refine ⟨paired.cursor, paired.furthest, paired.extended, ?_, ?_⟩
  · intro other growing place
    rw [State.remember_memo, MemoStore.find?_insert, if_neg]
    · exact paired.growing other growing place
    · rintro ⟨sameName, _⟩
      rw [layered.injective other rule sameName, memoized] at growing
      cases growing
  · intro other otherMemoized place entry found
    rw [State.remember_memo, MemoStore.find?_insert] at found
    split at found
    · rename_i same
      obtain rfl := layered.injective other rule same.1
      cases found
      rw [same.2]
      exact ⟨outcome, rfl, stands⟩
    · exact paired.standing other otherMemoized place entry found

/-- Both parsers remember the outcome of a growing rule. -/
theorem rememberBoth (layered : grammar.Layered flat) (paired : Paired setup flat base off on)
    {rule : grammar.Rule} (growing : grammar.mode rule = .leftRecursive) {mark : Nat}
    (missing : base.find? (grammar.name rule) mark = none)
    (outcome : Cached grammar.Stored) :
    Paired setup flat base (off.remember (grammar.name rule) mark outcome)
      (on.remember (grammar.name rule) mark outcome) := by
  refine ⟨paired.cursor, paired.furthest, paired.extended.insert outcome missing, ?_, ?_⟩
  · intro other otherGrowing place
    simp only [State.remember_memo, MemoStore.find?_insert, paired.growing other otherGrowing place]
  · intro other memoized place entry found
    rw [State.remember_memo, MemoStore.find?_insert, if_neg] at found
    · exact paired.standing other memoized place entry found
    · rintro ⟨sameName, _⟩
      rw [layered.injective other rule sameName, growing] at memoized
      cases memoized

end Paired

/-- The comparison of a forgetting parser with a remembering one. What is remembered has to
stand for a part of what the first one knows. -/
def Lockstep.packrat (setup : Setup) (flat : grammar.Rule -> Prop)
    (part : MemoStore grammar.Stored ->
      MemoStore grammar.Stored) : Lockstep grammar where
  Relates off on := Paired setup flat (part off.memo) off on
  Lost _ := False
  Spared _ _ := False
  Errors error off other on := other = error ∧ Paired setup flat (part off.memo) off on
  cursor related := related.cursor
  moveTo mark related := related.moveTo mark
  log _ related := related.withEvents _ _
  consume related := related.consume
  errors _ related := ⟨rfl, related⟩
  lasting := .never

/-- Two setups that differ only in that the second one remembers plain outcomes. -/
structure Setup.Forgets (forgetful remembering : Setup) : Prop where
  buffer : remembering.buffer = forgetful.buffer
  keywords : remembering.keywords = forgetful.keywords
  off : forgetful.packrat = false
  on : remembering.packrat = true

namespace Lockstep

variable {forgetful remembering : Setup} {flat : grammar.Rule -> Prop}
  {part : MemoStore grammar.Stored ->
    MemoStore grammar.Stored}

/-- A remembered plain outcome stands for the evaluation that is left out. -/
theorem packrat_hit (differ : forgetful.Forgets remembering) {rule : grammar.Rule}
    (memoized : grammar.mode rule = .memoized) {bound : Nat} {off on : State grammar}
    (related : (packrat forgetful flat part).Relates off on)
    {entry : Cached grammar.Stored}
    (found : on.memo.find? (grammar.name rule) on.cursor = some entry) :
    (packrat forgetful flat part).InStep (grammar.runRule forgetful (bound + 1) rule off)
      (grammar.runRule remembering (bound + 1) rule on) := by
  obtain ⟨outcome, rfl, enough, again⟩ := related.standing rule memoized _ _ found
  have replayed : grammar.runRule remembering (bound + 1) rule on = (outcome.toOutcome,
      (on.log (.memoHit (grammar.name rule) on.cursor)).moveTo (outcome.stopFrom on.cursor)) :=
    Run.inMode_of_tagged (.inr ⟨memoized, differ.on⟩) found
  obtain ⟨events, evaluated⟩ := again off related.cursor.symm
    (Setup.covers_of_extends related.extended) (Nat.le_refl _)
  have endsAgain : (grammar.runRule forgetful enough rule off).1 ≠ .unfinished := by
    rw [evaluated]
    cases outcome <;> exact nofun
  have moved := (Paired.withEvents related off.events
    (.memoHit (grammar.name rule) on.cursor :: on.events)).moveTo (outcome.stopFrom on.cursor)
  by_cases ends : (grammar.runRule forgetful (bound + 1) rule off).1 = .unfinished
  · generalize grammar.runRule forgetful (bound + 1) rule off = ended at ends ⊢
    obtain ⟨reachedOutcome, reached⟩ := ended
    cases ends
    exact .unfinished
  · rw [Grammar.runRule_eq_of_ends ends endsAgain, evaluated, replayed]
    cases outcome with
    | failure => exact .failure (moved.withEvents _ _)
    | success => exact .success (moved.withEvents _ _)

/-- A plain outcome that is not remembered yet stands from now on. -/
theorem packrat_miss (layered : grammar.Layered flat) (differ : forgetful.Forgets remembering)
    {rule : grammar.Rule} (memoized : grammar.mode rule = .memoized) {bound : Nat}
    (stands : ∀ {start reached : State grammar} {outcome : Cached (grammar.Value rule)},
      grammar.runRule forgetful (bound + 1) rule start = (outcome.toOutcome, reached) ->
      reached.cursor = outcome.stopFrom start.cursor ->
      forgetful.Stands flat (part reached.memo) reached.furthest rule start.cursor outcome)
    (body : (packrat forgetful flat part).Follows
      ((grammar.body rule).run forgetful (grammar.runRule forgetful bound) bound)
      ((grammar.body rule).run remembering (grammar.runRule remembering bound) bound))
    {off on : State grammar} (related : (packrat forgetful flat part).Relates off on)
    (missing : on.memo.find? (grammar.name rule) on.cursor = none) :
    (packrat forgetful flat part).InStep (grammar.runRule forgetful (bound + 1) rule off)
      (grammar.runRule remembering (bound + 1) rule on) := by
  have restored := grammar.runRule_restores layered.restoring forgetful (bound + 1) rule off
  have before : grammar.runRule forgetful (bound + 1) rule off =
      (grammar.body rule).run forgetful (grammar.runRule forgetful bound) bound
        (off.log (.entered (grammar.name rule) off.cursor)) := by
    simp only [Grammar.runRule, Run.inMode, memoized, Run.memoized, differ.off, Bool.false_eq_true,
      if_false]
  -- Nothing is stored here, so both of them evaluate the body, one after a miss.
  have between := body (off.log (.entered (grammar.name rule) off.cursor))
    ((on.log (.memoMissed (grammar.name rule) on.cursor false)).log
      (.entered (grammar.name rule) on.cursor)) (Paired.withEvents related _ _)
  rw [← before] at between
  have after : grammar.runRule remembering (bound + 1) rule on =
      Run.memoized remembering rule
        ((grammar.body rule).run remembering (grammar.runRule remembering bound) bound) on := by
    simp only [Grammar.runRule, Run.inMode, memoized]
  rw [after]
  simp only [Run.memoized, differ.on, if_true, Run.replay?_of_missing missing]
  clear before after
  generalize evaluated : grammar.runRule forgetful (bound + 1) rule off = left
    at between restored ⊢
  generalize Expression.run _ _ _ _ _ = right at between ⊢
  cases between with
  | unfinished => exact .unfinished
  | lost lost => exact lost.elim
  | spared spared => exact spared.elim
  | @success value reached twin later =>
      have stand : forgetful.Stands flat (part reached.memo) reached.furthest rule off.cursor
          (.success value reached.cursor) := stands evaluated rfl
      simp only [related.cursor, later.cursor]
      exact .success (Paired.remember layered later memoized stand)
  | @failure reached twin later =>
      have here : reached.cursor = off.cursor := restored rfl
      have stand : forgetful.Stands flat (part reached.memo) reached.furthest rule off.cursor
          .failure := stands evaluated here
      rw [related.cursor]
      have back := (later.moveTo off.cursor).remember layered memoized stand
      rw [show reached.moveTo off.cursor = reached by rw [← here]; rfl] at back
      exact .failure back
  | fatal alike => exact .fatal alike

/-- A memoized rule is followed, whether or not its outcome is remembered already. -/
theorem packrat_memoized (layered : grammar.Layered flat) (differ : forgetful.Forgets remembering)
    {rule : grammar.Rule} (memoized : grammar.mode rule = .memoized) {bound : Nat}
    (stands : ∀ {start reached : State grammar} {outcome : Cached (grammar.Value rule)},
      grammar.runRule forgetful (bound + 1) rule start = (outcome.toOutcome, reached) ->
      reached.cursor = outcome.stopFrom start.cursor ->
      forgetful.Stands flat (part reached.memo) reached.furthest rule start.cursor outcome)
    (body : (packrat forgetful flat part).Follows
      ((grammar.body rule).run forgetful (grammar.runRule forgetful bound) bound)
      ((grammar.body rule).run remembering (grammar.runRule remembering bound) bound)) :
    (packrat forgetful flat part).Follows (grammar.runRule forgetful (bound + 1) rule)
      (grammar.runRule remembering (bound + 1) rule) := by
  intro off on related
  cases found : on.memo.find? (grammar.name rule) on.cursor with
  | none => exact packrat_miss layered differ memoized stands body related found
  | some entry => exact packrat_hit differ memoized related found

/-- What stands for a part of what is known stands for all of it. -/
theorem packrat_widen {Result : Type}
    {base : MemoStore grammar.Stored}
    {left right : Outcome Result × State grammar}
    (between : (packrat forgetful flat fun _ => base).InStep left right) :
    (packrat forgetful flat fun memo => memo).InStep left right := by
  cases between with
  | unfinished => exact .unfinished
  | lost lost => exact lost.elim
  | spared spared => exact spared.elim
  | success related => exact .success (Paired.widen related)
  | failure related => exact .failure (Paired.widen related)
  | fatal alike => exact .fatal ⟨alike.1, Paired.widen alike.2⟩

end Lockstep

namespace Grammar.Layered

variable {forgetful remembering : Setup} {flat : grammar.Rule -> Prop}

/-- While a rule grows, nothing new stands that would depend on what it has grown to. -/
theorem runRule_follows_growing (layered : grammar.Layered flat)
    (differ : forgetful.Forgets remembering)
    (base : MemoStore grammar.Stored) (bound : Nat)
    (rule : grammar.Rule) (inside : flat rule ∨ grammar.mode rule = .leftRecursive) :
    (Lockstep.packrat forgetful flat fun _ => base).Follows
      (grammar.runRule forgetful bound rule) (grammar.runRule remembering bound rule) := by
  induction bound generalizing rule with
  | zero => exact fun _ _ _ => .unfinished
  | succ bound inductionHypothesis =>
      have calls : (grammar.body rule).Calls fun other =>
          flat other ∨ grammar.mode other = .leftRecursive := by
        rcases inside with isFlat | growing
        · exact (layered.flatCalls rule isFlat).mono fun _ => .inl
        · exact layered.growingCalls rule growing
      have body := Expression.run_follows (Lockstep.packrat forgetful flat fun _ => base) forgetful
        remembering differ.buffer differ.keywords inductionHypothesis (fun _ _ lost => lost)
        (Nat.le_refl bound) (grammar.body rule) calls
      cases mode : grammar.mode rule with
      | plain =>
          simp only [Grammar.runRule, Run.inMode, mode]
          exact body
      | memoized =>
          have isFlat : flat rule := inside.resolve_right (by rw [mode]; rintro ⟨⟩)
          refine Lockstep.packrat_memoized layered differ mode ?_ body
          intro start reached outcome before stop
          exact (Setup.Stands.of_run layered before stop).of_flat layered differ.off isFlat
      | leftRecursive =>
          simp only [Grammar.runRule, Run.inMode, mode]
          refine .leftRecursive ?_ ?_ (fun _ _ => False.elim) differ.buffer body fun _ => False.elim
          · intro off on related
            rw [related.cursor]
            exact related.growing rule mode off.cursor
          · intro start twin related missing off on outcome later
            exact Paired.rememberBoth layered later mode (related.extended.find?_eq_none missing)
              outcome

/-- Every rule ends alike in a parser that forgets plain outcomes and in one that
remembers them. -/
theorem runRule_follows (layered : grammar.Layered flat) (differ : forgetful.Forgets remembering)
    (bound : Nat) (rule : grammar.Rule) :
    (Lockstep.packrat forgetful flat fun memo => memo).Follows
      (grammar.runRule forgetful bound rule) (grammar.runRule remembering bound rule) := by
  induction bound generalizing rule with
  | zero => exact fun _ _ _ => .unfinished
  | succ bound inductionHypothesis =>
      have body := Expression.run_follows (Lockstep.packrat forgetful flat fun memo => memo)
        forgetful remembering differ.buffer differ.keywords
        (fun rule _ => inductionHypothesis rule) (fun _ _ lost => lost) (Nat.le_refl bound)
        (grammar.body rule) (Expression.calls_of_forall (fun _ => trivial) _)
      cases mode : grammar.mode rule with
      | plain =>
          simp only [Grammar.runRule, Run.inMode, mode]
          exact body
      | memoized =>
          exact Lockstep.packrat_memoized layered differ mode (Setup.Stands.of_run layered) body
      | leftRecursive =>
          -- What is remembered when the rule begins to grow serves as the fixed part.
          intro off on related
          exact Lockstep.packrat_widen (layered.runRule_follows_growing differ off.memo (bound + 1)
            rule (.inr mode) off on related)

end Grammar.Layered

end KiwiFront.Peg
