import KiwiFront.Proofs.Peg.LeftRecursion
import KiwiFront.Proofs.Peg.Memoizers
import KiwiFront.Proofs.Peg.Procedures
import Mathlib

/-!
# How far a rule grows

A left-recursive rule runs its body in rounds. As long as each round ends without an error and
within the buffer, the rounds that are accepted end at marks that increase, so that there are no
more of them than tokens ahead, and one more round is the last one. What is remembered of the
rule is always the last accepted round: the body may be any procedure and evaluate whatever it
likes, the rule itself included, but it replaces nothing that was remembered before it.
-/

namespace KiwiFront.Peg

variable {grammar : Grammar} {Result : Type}

/-- Whether a run has ended without an error, and within a buffer of some size if it has
succeeded. -/
def Outcome.SettlesWithin (size : Nat) : Outcome Result × State grammar -> Prop
  | (.success _, reached) => reached.cursor ≤ size
  | (.failure, _) => True
  | (.fatal _, _) | (.unfinished, _) => False

instance (size : Nat) (ended : Outcome Result × State grammar) :
    Decidable (Outcome.SettlesWithin size ended) :=
  match ended with
  | (.success _, reached) => inferInstanceAs (Decidable (reached.cursor ≤ size))
  | (.failure, _) => inferInstanceAs (Decidable True)
  | (.fatal _, _) | (.unfinished, _) => inferInstanceAs (Decidable False)

theorem Outcome.SettlesWithin.not_breaksOff {size : Nat}
    {ended : Outcome Result × State grammar} (settles : SettlesWithin size ended) :
    ¬ ended.1.BreaksOff := by
  obtain ⟨outcome, reached⟩ := ended
  cases outcome with
  | success | failure => exact id
  | fatal | unfinished => exact settles.elim

namespace Run

variable {rule : grammar.Rule}

/-- The states in which growing a rule from `start` runs its body, in order. -/
def rounds (rule : grammar.Rule) (body : Run grammar (grammar.Value rule)) (start : Nat) :
    (bound : Nat) -> (accepted : Option (grammar.Value rule × Nat)) -> State grammar ->
      List (State grammar)
  | 0, _, _ => []
  | bound + 1, accepted, state =>
      let entered := state.enter rule start
      match body entered with
      | (.success value, reached) =>
          if (accepted.map Prod.snd).getD start < reached.cursor then
            entered :: rounds rule body start bound (some (value, reached.cursor))
              (reached.accept rule start value)
          else [entered]
      | _ => [entered]

/-- The states in which a left-recursive rule that is not replayed runs its body. -/
def growingRounds (setup : Setup) (rule : grammar.Rule) (body : Run grammar (grammar.Value rule))
    (state : State grammar) : List (State grammar) :=
  rounds rule body state.cursor ((roundLimit? setup.buffer.tokens.size state.cursor).getD 0) none
    (state.seed rule)

section Rounds

variable {body : Run grammar (grammar.Value rule)} {start bound : Nat}
  {accepted : Option (grammar.Value rule × Nat)} {state reached : State grammar}
  {value : grammar.Value rule}

/-- An accepted round comes before those that follow it. -/
theorem rounds_of_further (ran : body (state.enter rule start) = (.success value, reached))
    (further : (accepted.map Prod.snd).getD start < reached.cursor) :
    rounds rule body start (bound + 1) accepted state =
      state.enter rule start ::
        rounds rule body start bound (some (value, reached.cursor))
          (reached.accept rule start value) := by
  simp only [rounds, ran, further, if_true]

/-- A round that leads no further is the last one. -/
theorem rounds_of_noFurther (accepted : Option (grammar.Value rule × Nat))
    (noFurther : Outcome.NoFurther ((accepted.map Prod.snd).getD start)
      (body (state.enter rule start))) :
    rounds rule body start (bound + 1) accepted state = [state.enter rule start] := by
  unfold rounds
  simp only
  generalize body (state.enter rule start) = ended at noFurther
  obtain ⟨outcome, reached⟩ := ended
  cases outcome with
  | success => exact if_neg (Nat.not_lt_of_le noFurther)
  | failure => rfl
  | fatal | unfinished => exact noFurther.elim

theorem mem_rounds :
    state.enter rule start ∈ rounds rule body start (bound + 1) accepted state := by
  simp only [rounds]
  split
  · split <;> exact List.mem_cons_self
  · exact List.mem_cons_self

end Rounds

/-- How a run ends, and where the cursor is then. -/
def ending (body : Run grammar Result) (entered : State grammar) : Outcome Result × Nat :=
  ((body entered).1, (body entered).2.cursor)

/-- What growing a rule from `start` comes to behind what it has accepted before. -/
structure Growth (rule : grammar.Rule) (body : Run grammar (grammar.Value rule)) (start : Nat)
    (before : Option (grammar.Value rule × Nat)) (rounds : List (State grammar))
    (ended : Outcome (grammar.Value rule) × State grammar)
    (accepted : List (grammar.Value rule × Nat)) : Prop where
  /-- All rounds but the last one are accepted, which leads no further than those before it. -/
  rounds : ∃ last, rounds.map (ending body) =
      accepted.map (fun round => (.success round.1, round.2)) ++ [last] ∧
    ∀ value, last.1 = .success value ->
      last.2 ≤ ((accepted.getLast?.or before).map Prod.snd).getD start
  increasing : ((before.map Prod.snd).getD start :: accepted.map Prod.snd).Pairwise (· < ·)
  outcome : ended.1 = (acceptedOutcome (accepted.getLast?.or before)).toOutcome
  cursor : ended.2.cursor = (acceptedOutcome (accepted.getLast?.or before)).stopFrom start
  records : ended.2.Records rule start (acceptedOutcome (accepted.getLast?.or before))

namespace Growth

variable {body : Run grammar (grammar.Value rule)} {start : Nat}
  {before : Option (grammar.Value rule × Nat)} {rest : List (State grammar)}
  {ended : Outcome (grammar.Value rule) × State grammar}
  {entered reached : State grammar}

/-- One more accepted round comes first. -/
theorem further {value : grammar.Value rule} {accepted : List (grammar.Value rule × Nat)}
    (ran : body entered = (.success value, reached))
    (further : (before.map Prod.snd).getD start < reached.cursor)
    (growth : Growth rule body start (some (value, reached.cursor)) rest ended accepted) :
    Growth rule body start before (entered :: rest) ended
      ((value, reached.cursor) :: accepted) := by
  have sameLast : ((value, reached.cursor) :: accepted).getLast?.or before =
      accepted.getLast?.or (some (value, reached.cursor)) := by
    rw [List.getLast?_cons]
    cases accepted.getLast? <;> rfl
  obtain ⟨last, listed, noFurther⟩ := growth.rounds
  refine ⟨⟨last, ?_, ?_⟩, ?_, ?_, ?_, ?_⟩
  · rw [List.map_cons, listed, ending, ran]
    rfl
  · rwa [sameLast]
  · refine List.pairwise_cons.2 ⟨?_, growth.increasing⟩
    intro stop member
    rcases List.mem_cons.1 member with rfl | later
    · exact further
    · exact further.trans (List.rel_of_pairwise_cons growth.increasing later)
  · rw [sameLast]
    exact growth.outcome
  · rw [sameLast]
    exact growth.cursor
  · rw [sameLast]
    exact growth.records

/-- A round that leads no further is the last one. -/
theorem last
    (noFurther : Outcome.NoFurther ((before.map Prod.snd).getD start) (body entered))
    (kept : reached.Records rule start (acceptedOutcome before)) :
    Growth rule body start before [entered] (grown start before reached) [] := by
  refine ⟨⟨ending body entered, rfl, fun _ succeeded => noFurther.cursor_le succeeded⟩,
    List.pairwise_singleton _ _, ?_, ?_, ?_⟩
  all_goals
    cases before with
    | none => first | rfl | exact kept
    | some round => first | rfl | exact kept

end Growth

variable {body : Run grammar (grammar.Value rule)}

/-- As long as its rounds settle within the buffer, a rule grows until a round leads no further
than those before it, and it gets there within the bound. -/
theorem grow_growth (keeps : ∀ base low, body.Keeps (State.Beyond base low)) {size start : Nat}
    {bound : Nat} {before : Option (grammar.Value rule × Nat)} {state : State grammar}
    (within : (before.map Prod.snd).getD start ≤ size)
    (enough : size - (before.map Prod.snd).getD start < bound)
    (found : state.Records rule start (acceptedOutcome before))
    (settled : ∀ entered ∈ rounds rule body start bound before state,
      Outcome.SettlesWithin size (body entered)) :
    ∃ accepted, (before.map Prod.snd).getD start + accepted.length ≤ size ∧
      Growth rule body start before (rounds rule body start bound before state)
        (grow rule body start bound before state) accepted := by
  -- A round replaces nothing, so that what was accepted last stays remembered.
  have kept : ∀ {before : Option (grammar.Value rule × Nat)} {state : State grammar},
      state.Records rule start (acceptedOutcome before) ->
        (body (state.enter rule start)).2.Records rule start (acceptedOutcome before) :=
    fun {_ state} found => (keeps state.memo 0 (state.enter rule start)
      ⟨.refl _, Nat.zero_le _⟩).1 _ _ _ found
  refine grow_induction
    (motive := fun bound before state ended =>
      (before.map Prod.snd).getD start ≤ size ->
      size - (before.map Prod.snd).getD start < bound ->
      state.Records rule start (acceptedOutcome before) ->
      (∀ entered ∈ rounds rule body start bound before state,
        Outcome.SettlesWithin size (body entered)) ->
      ∃ accepted, (before.map Prod.snd).getD start + accepted.length ≤ size ∧
        Growth rule body start before (rounds rule body start bound before state) ended accepted)
    ?_ ?_ ?_ ?_ ?_ bound before state within enough found settled
  · exact fun _ _ _ enough => absurd enough (Nat.not_lt_zero _)
  · intro bound before state value ended succeeded further later _ enough _ settled
    generalize reachedHere : (body (state.enter rule start)).2 = reached at further later
    have ran : body (state.enter rule start) = (.success value, reached) :=
      Prod.ext succeeded reachedHere
    have inBuffer : reached.cursor ≤ size := by
      have settles := settled _ mem_rounds
      rwa [ran] at settles
    have fewerAhead : size - reached.cursor < bound := by omega
    rw [rounds_of_further ran further] at settled ⊢
    obtain ⟨accepted, few, growth⟩ := later inBuffer fewerAhead
      (by simp [State.Records, acceptedOutcome, Cached.tagged])
      fun entered member => settled entered (List.mem_cons_of_mem _ member)
    have fewLater : reached.cursor + accepted.length ≤ size := few
    exact ⟨_, by rw [List.length_cons]; omega, growth.further ran further⟩
  · intro bound state noFurther within _ found _
    rw [rounds_of_noFurther none noFurther]
    exact ⟨[], within, .last noFurther (kept found)⟩
  · intro bound value stop state noFurther within _ found _
    rw [rounds_of_noFurther (some (value, stop)) noFurther]
    exact ⟨[], within, .last noFurther (kept found)⟩
  · exact fun _ _ _ breaks _ _ _ settled => absurd breaks (settled _ mem_rounds).not_breaksOff

/-- How a rule grows depends on nothing but how its body ends in the rounds. -/
theorem grow_congr {other : Run grammar (grammar.Value rule)} {start bound : Nat}
    {before : Option (grammar.Value rule × Nat)} {state : State grammar}
    (same : ∀ entered ∈ rounds rule body start bound before state, other entered = body entered) :
    grow rule other start bound before state = grow rule body start bound before state := by
  refine grow_induction
    (motive := fun bound before state ended =>
      (∀ entered ∈ rounds rule body start bound before state, other entered = body entered) ->
        grow rule other start bound before state = ended)
    ?_ ?_ ?_ ?_ ?_ bound before state same
  · exact fun _ _ _ => rfl
  · intro bound before state value ended succeeded further later same
    have ran : body (state.enter rule start) =
        (.success value, (body (state.enter rule start)).2) := Prod.ext succeeded rfl
    rw [grow_of_further ((same _ mem_rounds).trans ran) further]
    rw [rounds_of_further ran further] at same
    exact later fun entered member => same entered (List.mem_cons_of_mem _ member)
  · exact fun _ _ noFurther same => grow_of_noFurther (same _ mem_rounds) noFurther
  · exact fun _ _ _ _ noFurther same => grow_of_noFurther (same _ mem_rounds) noFurther
  · exact fun _ _ _ breaks same => grow_of_breaksOff (same _ mem_rounds) breaks

/-- Evaluated where nothing is remembered of it, and as long as its body settles within the
buffer, a left-recursive rule runs the body once more than it accepts it, at most once for every
token ahead and once more. The accepted rounds lead further and further, the last one is what
the rule comes to, and what is remembered of the rule at that mark. The body may be any
procedure. -/
theorem leftRecursive_settles (setup : Setup) (rule : grammar.Rule)
    (body : Run grammar (grammar.Value rule)) (procedural : body.Procedural setup)
    (state : State grammar) (within : state.cursor ≤ setup.buffer.tokens.size)
    (missing : state.memo.find? (grammar.name rule) state.cursor = none)
    (settled : ∀ entered ∈ growingRounds setup rule body state,
      Outcome.SettlesWithin setup.buffer.tokens.size (body entered)) :
    let start := state.cursor
    let rounds := growingRounds setup rule body state
    let ended := leftRecursive setup rule body state
    (∀ other : Run grammar (grammar.Value rule),
      (∀ entered ∈ rounds, other entered = body entered) ->
        leftRecursive setup rule other state = ended) ∧
    rounds.length ≤ setup.buffer.tokens.size - start + 1 ∧
    ∃ accepted : List (grammar.Value rule × Nat),
      (∃ last, rounds.map (ending body) =
          accepted.map (fun round => (.success round.1, round.2)) ++ [last] ∧
        ∀ value, last.1 = .success value ->
          last.2 ≤ (accepted.getLast?.map Prod.snd).getD start) ∧
      (start :: accepted.map Prod.snd).Pairwise (· < ·) ∧
      match accepted.getLast? with
      | none => ended.1 = .failure ∧ ended.2.cursor = start ∧
          ended.2.memo.find? (grammar.name rule) start = some .failure
      | some (value, stop) => ended.1 = .success value ∧ ended.2.cursor = stop ∧
          ended.2.memo.find? (grammar.name rule) start =
            some (.success ⟨grammar.tag rule, value⟩ stop) := by
  intro start rounds ended
  have listsRounds : rounds = Run.rounds rule body start (setup.buffer.tokens.size - start + 2) none
      (state.seed rule) := by
    simp only [rounds, growingRounds, roundLimit?_of_le within, Option.getD_some, start]
  have withinNone : ((none : Option (grammar.Value rule × Nat)).map Prod.snd).getD start ≤
      setup.buffer.tokens.size := within
  have enough : setup.buffer.tokens.size - start < setup.buffer.tokens.size - start + 2 := by
    omega
  have seeded : (state.seed rule).Records rule start (acceptedOutcome none) := by
    simp [start, State.Records, acceptedOutcome, Cached.tagged]
  obtain ⟨accepted, few, growth⟩ := grow_growth procedural.beyond withinNone enough seeded
    (listsRounds ▸ settled)
  rw [← leftRecursive_of_missing missing within, ← listsRounds] at growth
  have fewLater : start + accepted.length ≤ setup.buffer.tokens.size := few
  obtain ⟨last, listed, noFurther⟩ := growth.rounds
  -- Rounds are counted by how they end.
  have length : rounds.length = accepted.length + 1 := by
    rw [← List.length_map (ending body), show rounds.map (ending body) = _ from listed]
    simp
  refine ⟨?_, by omega, accepted, ⟨last, listed, ?_⟩, growth.increasing, ?_⟩
  · intro other same
    rw [leftRecursive_of_missing missing within, grow_congr (listsRounds ▸ same),
      ← leftRecursive_of_missing missing within]
  · rwa [Option.or_none] at noFurther
  · have outcome := growth.outcome
    have cursor := growth.cursor
    have records := growth.records
    rw [Option.or_none] at outcome cursor records
    cases final : accepted.getLast? with
    | none =>
        rw [final] at outcome cursor records
        exact ⟨outcome, cursor, records⟩
    | some round =>
        rw [final] at outcome cursor records
        exact ⟨outcome, cursor, records⟩

/-- A dotted name of two parts: the second part is a round of its own, and so is the leftover
dot behind it. -/
theorem leftRecursive_settles_dotted :
    let setup : Setup := { buffer := .ofTokens [.nameAt 0 0 "a", .placed .dot "." 0 1,
      .nameAt 0 2 "b", .placed .dot "." 0 3], keywords := [], packrat := false }
    let state : State DottedName.rules := .initial
    let body := DottedName.rules.evaluate setup 7 (DottedName.rules.body ())
    let rounds := growingRounds setup () body state
    state.cursor ≤ setup.buffer.tokens.size ∧
      state.memo.find? "dotted" state.cursor = none ∧
      (∀ entered ∈ rounds, Outcome.SettlesWithin setup.buffer.tokens.size (body entered)) ∧
      rounds.length = 3 ∧ rounds.length ≤ setup.buffer.tokens.size - state.cursor + 1 ∧
      (leftRecursive setup () body state).2.memo.find? "dotted" 0 =
        some (.success ⟨(), .member (.name "a") "b"⟩ 3) := by
  intro setup state body rounds
  have within : state.cursor ≤ setup.buffer.tokens.size := Nat.zero_le _
  have missing : state.memo.find? "dotted" state.cursor = none := MemoStore.find?_empty _ _
  have settled : ∀ entered ∈ rounds,
      Outcome.SettlesWithin setup.buffer.tokens.size (body entered) := by
    decide +kernel
  have procedural : body.Procedural setup := DottedName.rules.evaluate_procedural setup 7 _
  have settles := @leftRecursive_settles DottedName.rules setup () body procedural state within
    missing settled
  have three : rounds.length = 3 := by decide +kernel
  exact ⟨within, missing, settled, three, settles.2.1, rfl⟩

end Run

end KiwiFront.Peg
