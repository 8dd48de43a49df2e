import KiwiFront.Proofs.Peg.Profiles
import KiwiFront.Proofs.Peg.Endings
import KiwiFront.Proofs.Peg.Sessions
import Mathlib.Data.List.Nodup

/-!
# What a parser that remembers is spared

A parser that remembers the outcomes of its rules evaluates none of them twice at a mark. Its
events and its store make up a ledger: whatever was missed is remembered by now or still being
evaluated, and a rule was evaluated once for each mark where it is remembered, and once more for
each time that it grew. A rule that is being evaluated is not entered again at the same mark,
since the rules that are called in place rank lower, and behind it the cursor never goes back.
-/

namespace KiwiFront.Peg

variable {grammar : Grammar} {Result : Type}

/-- How many outcomes of a rule are remembered at a mark: one or none. -/
def MemoStore.kept {Value : Type} (store : MemoStore Value) (rule : String) (mark : Nat) : Nat :=
  if (store.find? rule mark).isSome then 1 else 0

namespace MemoStore

variable {Value : Type} {store : MemoStore Value} {rule other : String} {mark place : Nat}
  {outcome : Cached Value}

/-- Nothing is kept of what is missing. -/
theorem kept_of_none (missing : store.find? rule mark = none) : store.kept rule mark = 0 := by
  rw [kept, missing]
  rfl

/-- What is found is kept once. -/
theorem kept_of_found (found : store.find? rule mark ≠ none) : store.kept rule mark = 1 := by
  rw [kept, if_pos (Option.isSome_iff_ne_none.2 found)]

/-- It is never kept twice. -/
theorem kept_le_one (store : MemoStore Value) (rule : String) (mark : Nat) :
    store.kept rule mark ≤ 1 := by
  unfold kept
  split <;> decide

/-- Putting in an outcome keeps it, and changes nothing elsewhere. -/
theorem kept_insert : (store.insert rule mark outcome).kept other place =
    if other = rule ∧ place = mark then 1 else store.kept other place := by
  unfold kept
  rw [find?_insert]
  split <;> rfl

/-- The marks up to some mark where an outcome of a rule is remembered. -/
def marks (store : MemoStore Value) (rule : String) (size : Nat) : List Nat :=
  (List.range (size + 1)).filter fun mark => (store.find? rule mark).isSome

/-- A rule is remembered at no more marks than there are. -/
theorem length_marks_le (store : MemoStore Value) (rule : String) (size : Nat) :
    (store.marks rule size).length ≤ size + 1 :=
  Nat.le_trans (List.length_filter_le _ _) (Nat.le_of_eq List.length_range)

/-- Its marks are those at which something is found. -/
theorem mem_marks {size : Nat} :
    mark ∈ store.marks rule size ↔ mark ≤ size ∧ store.find? rule mark ≠ none := by
  rw [marks, List.mem_filter, List.mem_range, Nat.lt_succ_iff, Option.isSome_iff_ne_none]

/-- Each of them is listed once. -/
theorem count_marks {size : Nat}
    (within : ∀ mark, store.find? rule mark ≠ none -> mark ≤ size) :
    (store.marks rule size).count mark = store.kept rule mark := by
  by_cases found : store.find? rule mark = none
  · rw [kept_of_none found, List.count_eq_zero, mem_marks]
    exact fun member => member.2 found
  · rw [kept_of_found found]
    exact List.count_eq_one_of_mem (List.nodup_range.filter _)
      (mem_marks.2 ⟨within mark found, found⟩)

/-- A new entry makes a store larger by one. -/
theorem size_insert_of_none (missing : store.find? rule mark = none) :
    (store.insert rule mark outcome).size = store.size + 1 := by
  rw [insert, missing]
  rfl

/-- One that replaces another does not. -/
theorem size_insert_of_found (found : store.find? rule mark ≠ none) :
    (store.insert rule mark outcome).size = store.size := by
  rw [insert, if_pos (Option.isSome_iff_ne_none.2 found)]

end MemoStore

/-- Names of rules, each at a mark. -/
abbrev Places := List (String × Nat)

/-- What was missed, evaluated and remembered goes together: whatever was missed is remembered or
still pending, and each rule was evaluated once where it is remembered or pending, and once more
for each time that it grew, unless an evaluation is still due. -/
structure State.Ledger (size : Nat) (pending due : Places) (state : State grammar) : Prop where
  missed : state.misses = state.memo.size + pending.length
  evaluated : ∀ name mark, (state.entries name).count mark + due.count (name, mark) =
    (state.growths name).count mark + state.memo.kept name mark + pending.count (name, mark)
  grown : ∀ name start stop, Event.grew name start stop ∈ state.events ->
    ∃ rule, grammar.mode rule = .leftRecursive ∧ grammar.name rule = name
  within : ∀ name, ∀ mark ∈ state.entries name, mark ≤ size
  once : pending.Nodup
  missing : ∀ name mark, (name, mark) ∈ pending -> state.memo.find? name mark = none

/-- No memoized rule was evaluated twice at a mark. -/
def State.EnteredOnce (state : State grammar) : Prop :=
  ∀ rule, grammar.mode rule = .memoized -> ∀ mark,
    (state.entries (grammar.name rule)).count mark ≤ 1

namespace State.Ledger

variable {size : Nat} {pending due : Places} {state : State grammar}

/-- Nothing has happened yet in a new state. -/
theorem initial (size : Nat) : (State.initial : State grammar).Ledger size [] [] where
  missed := rfl
  evaluated name mark := by
    simp [State.entries, State.growths, State.initial, MemoStore.kept]
  grown := nofun
  within := nofun
  once := List.nodup_nil
  missing := nofun

/-- Moving the cursor books nothing. -/
theorem moveTo (ledger : state.Ledger size pending due) (mark : Nat) :
    (state.moveTo mark).Ledger size pending due :=
  ⟨ledger.missed, ledger.evaluated, ledger.grown, ledger.within, ledger.once, ledger.missing⟩

/-- Neither does consuming a token. -/
theorem consume (ledger : state.Ledger size pending due) :
    state.consume.Ledger size pending due :=
  ⟨ledger.missed, ledger.evaluated, ledger.grown, ledger.within, ledger.once, ledger.missing⟩

/-- Most events are of no account. -/
theorem log (ledger : state.Ledger size pending due) {event : Event} (quiet : event.Quiet) :
    (state.log event).Ledger size pending due := by
  have noEntry : ∀ name, (state.log event).entries name = state.entries name := by
    intro name
    rw [State.entries_log]
    cases event <;> first | rfl | exact quiet.elim
  have noGrowth : ∀ name, (state.log event).growths name = state.growths name := by
    intro name
    rw [State.growths_log]
    cases event <;> first | rfl | exact quiet.elim
  have noMiss : (state.log event).misses = state.misses := by
    rw [State.misses_log]
    cases event <;> first | rfl | exact quiet.elim
  refine ⟨noMiss.trans ledger.missed, ?_, ?_, ?_, ledger.once, ledger.missing⟩
  · intro name mark
    rw [noEntry, noGrowth]
    exact ledger.evaluated name mark
  · intro name start stop member
    rcases List.mem_cons.1 member with rfl | before
    · exact quiet.elim
    · exact ledger.grown name start stop before
  · intro name
    rw [noEntry]
    exact ledger.within name

/-- Nor a reset, which notes nothing but a backtrack. -/
theorem reset (ledger : state.Ledger size pending due) (mark : Nat) :
    (state.reset mark).Ledger size pending due := by
  unfold State.reset
  split
  · exact (ledger.moveTo mark).log trivial
  · exact ledger.moveTo mark

/-- Nothing is remembered beyond the buffer, since nothing was evaluated there. -/
theorem remembered_within (ledger : state.Ledger size [] []) (name : String) (mark : Nat)
    (found : state.memo.find? name mark ≠ none) : mark ≤ size := by
  have evaluated := ledger.evaluated name mark
  rw [MemoStore.kept_of_found found] at evaluated
  refine ledger.within name mark (List.count_pos_iff.1 ?_)
  simp only [List.count_nil] at evaluated
  omega

section Changes

variable {name : String} {mark : Nat}

/-- What is missed becomes pending, and an evaluation of it is due. -/
theorem miss (ledger : state.Ledger size pending due)
    (missing : state.memo.find? name mark = none) (fresh : (name, mark) ∉ pending)
    (growing : Bool) :
    (state.log (.memoMissed name mark growing)).Ledger size ((name, mark) :: pending)
      ((name, mark) :: due) := by
  refine ⟨?_, ?_, ?_, ledger.within, List.nodup_cons.2 ⟨fresh, ledger.once⟩, ?_⟩
  · rw [State.misses_log, ledger.missed]
    rfl
  · intro other place
    have before := ledger.evaluated other place
    simp only [State.entries_log, State.growths_log, Event.entryOf?, Event.growthOf?,
      Option.toList_none, List.nil_append, State.log_memo, List.count_cons]
    omega
  · intro other start stop member
    rcases List.mem_cons.1 member with isNew | before
    · cases isNew
    · exact ledger.grown other start stop before
  · intro other place member
    rcases List.mem_cons.1 member with same | before
    · cases same
      exact missing
    · exact ledger.missing other place before

/-- An evaluation that is due is entered. -/
theorem enter (ledger : state.Ledger size pending ((name, mark) :: due)) (within : mark ≤ size) :
    (state.log (.entered name mark)).Ledger size pending due := by
  refine ⟨?_, ?_, ?_, ?_, ledger.once, ledger.missing⟩
  · rw [State.misses_log, ledger.missed]
    rfl
  · intro other place
    have before := ledger.evaluated other place
    rw [List.count_cons] at before
    rw [State.entries_log, State.growths_log, Event.entryOf?]
    by_cases same : name = other
    · by_cases here : mark = place
      · simp [same, here, Event.growthOf?] at before ⊢
        omega
      · simpa [same, here, Event.growthOf?] using before
    · simpa [same, Event.growthOf?] using before
  · intro other start stop member
    rcases List.mem_cons.1 member with isNew | before
    · cases isNew
    · exact ledger.grown other start stop before
  · intro other place member
    rw [State.entries_log, Event.entryOf?] at member
    rcases List.mem_append.1 member with entered | before
    · split at entered
      · rwa [List.mem_singleton.1 entered]
      · cases entered
    · exact ledger.within other place before

/-- What is remembered is no longer pending. -/
theorem remember (ledger : state.Ledger size ((name, mark) :: pending) due)
    (outcome : Cached grammar.Stored) :
    (state.remember name mark outcome).Ledger size pending due := by
  obtain ⟨fresh, once⟩ := List.nodup_cons.1 ledger.once
  have missing := ledger.missing name mark List.mem_cons_self
  refine ⟨?_, ?_, ledger.grown, ledger.within, once, ?_⟩
  · rw [State.misses_remember, State.remember_memo, MemoStore.size_insert_of_none missing,
      ledger.missed, List.length_cons]
    omega
  · intro other place
    have before := ledger.evaluated other place
    rw [List.count_cons] at before
    rw [State.remember_memo, MemoStore.kept_insert]
    by_cases same : other = name ∧ place = mark
    · obtain ⟨rfl, rfl⟩ := same
      rw [MemoStore.kept_of_none missing] at before
      simp at before ⊢
      omega
    · have different : ¬ (name, mark) = (other, place) := by
        rintro ⟨⟩
        exact same ⟨rfl, rfl⟩
      simpa [same, different] using before
  · intro other place member
    rw [State.remember_memo, MemoStore.find?_insert, if_neg ?_]
    · exact ledger.missing other place (List.mem_cons_of_mem _ member)
    · rintro ⟨rfl, rfl⟩
      exact fresh member

/-- What was remembered before may be replaced. -/
theorem replace (ledger : state.Ledger size pending due)
    (found : state.memo.find? name mark ≠ none)
    (outcome : Cached grammar.Stored) :
    (state.remember name mark outcome).Ledger size pending due := by
  refine ⟨?_, ?_, ledger.grown, ledger.within, ledger.once, ?_⟩
  · rw [State.misses_remember, State.remember_memo, MemoStore.size_insert_of_found found]
    exact ledger.missed
  · intro other place
    have before := ledger.evaluated other place
    rw [State.remember_memo, MemoStore.kept_insert]
    split
    · rename_i same
      obtain ⟨rfl, rfl⟩ := same
      rwa [MemoStore.kept_of_found found] at before
    · exact before
  · intro other place member
    have missing := ledger.missing other place member
    rw [State.remember_memo, MemoStore.find?_insert, if_neg ?_]
    · exact missing
    · rintro ⟨rfl, rfl⟩
      exact found missing

/-- Where a rule has grown, one more evaluation is due. -/
theorem grow (ledger : state.Ledger size pending due) {rule : grammar.Rule}
    (growing : grammar.mode rule = .leftRecursive) (stop : Nat) :
    (state.log (.grew (grammar.name rule) mark stop)).Ledger size pending
      ((grammar.name rule, mark) :: due) := by
  refine ⟨?_, ?_, ?_, ledger.within, ledger.once, ledger.missing⟩
  · rw [State.misses_log, ledger.missed]
    rfl
  · intro other place
    have before := ledger.evaluated other place
    rw [State.entries_log, State.growths_log, Event.growthOf?, List.count_cons]
    by_cases same : grammar.name rule = other
    · by_cases here : mark = place
      · simp [same, here, Event.entryOf?]
        omega
      · simpa [same, here, Event.entryOf?] using before
    · simpa [same, Event.entryOf?] using before
  · intro other start last member
    rcases List.mem_cons.1 member with same | before
    · cases same
      exact ⟨rule, growing, rfl⟩
    · exact ledger.grown other start last before

end Changes

/-- A rule was evaluated once for each mark where it is remembered, and once more for each time
that it grew. -/
theorem length_entries (ledger : state.Ledger size [] []) (name : String) :
    (state.entries name).length =
      (state.growths name).length + (state.memo.marks name size).length := by
  have counted : (state.entries name).Perm (state.growths name ++ state.memo.marks name size) := by
    refine List.perm_iff_count.2 fun mark => ?_
    have evaluated := ledger.evaluated name mark
    simp only [List.count_nil] at evaluated
    rw [List.count_append, MemoStore.count_marks (ledger.remembered_within name)]
    omega
  rw [counted.length_eq, List.length_append]

section Counts

variable (injective : ∀ rule other, grammar.name rule = grammar.name other -> rule = other)
  {rule : grammar.Rule}
include injective

/-- Only growing rules grow. -/
theorem growths_eq_nil (ledger : state.Ledger size pending due)
    (steady : grammar.mode rule ≠ .leftRecursive) :
    state.growths (grammar.name rule) = [] := by
  refine List.filterMap_eq_nil_iff.2 fun event member => ?_
  cases event with
  | grew name start stop =>
      obtain ⟨other, growing, sameName⟩ := ledger.grown name start stop member
      refine if_neg fun same => steady ?_
      rwa [injective rule other (same.symm.trans sameName.symm)]
  | _ => rfl

/-- Where the books are kept, no rule is entered twice at a mark. -/
theorem enteredOnce (ledger : state.Ledger size pending due) : state.EnteredOnce := by
  intro rule memoized mark
  have steady : grammar.mode rule ≠ .leftRecursive := by
    rw [memoized]
    exact nofun
  have count := ledger.evaluated (grammar.name rule) mark
  rw [ledger.growths_eq_nil injective steady, List.count_nil] at count
  have kept := state.memo.kept_le_one (grammar.name rule) mark
  by_cases isPending : (grammar.name rule, mark) ∈ pending
  · rw [MemoStore.kept_of_none (ledger.missing _ _ isPending),
      List.count_eq_one_of_mem ledger.once isPending] at count
    omega
  · rw [List.count_eq_zero_of_not_mem isPending] at count
    omega

end Counts

end State.Ledger

/-- What a run leaves behind: a ledger if it has settled, and otherwise no rule that was entered
twice at least. -/
def Outcome.Booked (size : Nat) (pending : Places) : Outcome Result × State grammar -> Prop
  | (.success _, reached) | (.failure, reached) => reached.Ledger size pending []
  | (.fatal _, reached) | (.unfinished, reached) => reached.EnteredOnce

/-- So it is however a run has ended. -/
theorem Outcome.Booked.enteredOnce
    (injective : ∀ rule other, grammar.name rule = grammar.name other -> rule = other)
    {size : Nat} {pending : Places} {ended : Outcome Result × State grammar}
    (booked : Booked size pending ended) : ended.2.EnteredOnce := by
  obtain ⟨outcome, reached⟩ := ended
  cases outcome with
  | success | failure => exact State.Ledger.enteredOnce injective booked
  | fatal | unfinished => exact booked

/-- Nothing is due after an outcome that is not broken off. -/
theorem Outcome.Booked.ledger_of_not_breaksOff {size : Nat} {pending : Places}
    {ended : Outcome Result × State grammar} (booked : Booked size pending ended)
    (ends : ¬ ended.1.BreaksOff) : ended.2.Ledger size pending [] := by
  obtain ⟨outcome, reached⟩ := ended
  cases outcome with
  | success | failure => exact booked
  | fatal | unfinished => exact absurd trivial ends

/-- From some states a run keeps the ledger. -/
def Run.Books (size : Nat) (pending : Places) (holds : State grammar -> Prop)
    (run : Run grammar Result) : Prop :=
  ∀ state, holds state -> state.Ledger size pending [] -> Outcome.Booked size pending (run state)

namespace Run.Books

variable {size : Nat} {pending : Places} {holds : State grammar -> Prop}
  {run : Run grammar Result}

/-- What is booked under a condition is booked under a stricter one. -/
theorem weaken {narrower : State grammar -> Prop} (books : run.Books size pending holds)
    (included : ∀ state, narrower state -> holds state) : run.Books size pending narrower :=
  fun state held => books state (included state held)

/-- A sequence books what both of its runs book, if the second one begins in order. -/
theorem andThen {Next : Type} {next : Result -> Run grammar Next}
    (first : run.Books size pending holds)
    (second : ∀ state value, holds state -> (run state).1 = .success value ->
      (run state).2.Ledger size pending [] ->
        Outcome.Booked size pending (next value (run state).2)) :
    (run.andThen next).Books size pending holds := by
  intro state held ledger
  have between := first state held ledger
  have ahead := second state
  unfold Run.andThen
  generalize run state = ended at between ahead ⊢
  obtain ⟨outcome, reached⟩ := ended
  cases outcome with
  | success value => exact ahead value held rfl between
  | failure | fatal | unfinished => exact between

/-- It does so if the second one may begin anywhere. -/
theorem andThen_always {Next : Type} {next : Result -> Run grammar Next}
    (first : run.Books size pending holds)
    (second : ∀ value, (next value).Books size pending fun _ => True) :
    (run.andThen next).Books size pending holds :=
  first.andThen fun _ value _ _ ledger => second value _ trivial ledger

/-- Consuming a token books nothing. -/
theorem expect (setup : Setup) (matcher : Matcher) :
    (Run.expect setup matcher).Books size pending holds := by
  intro state _ ledger
  unfold Run.expect
  split
  · exact ledger
  · split
    · exact ledger.consume
    · exact ledger

/-- An alternative is booked where the first one has failed. -/
theorem orElse {other : Run grammar Result} (first : run.Books size pending holds)
    (second : other.Books size pending holds)
    (kept : ∀ state, holds state -> holds ((run state).2.reset state.cursor)) :
    (run.orElse other).Books size pending holds := by
  intro state held ledger
  have between := first state held ledger
  have back := kept state held
  unfold Run.orElse
  generalize run state = ended at between back ⊢
  obtain ⟨outcome, reached⟩ := ended
  cases outcome with
  | failure => exact second _ back (between.reset state.cursor)
  | success | fatal | unfinished => exact between

/-- What is looked at is booked as well. -/
theorem lookahead (positive : Bool) (ahead : run.Books size pending holds) :
    (Run.lookahead positive run).Books size pending holds := by
  intro state held ledger
  have between := ahead state held ledger
  unfold Run.lookahead
  generalize run state = ended at between ⊢
  obtain ⟨outcome, reached⟩ := ended
  cases outcome with
  | success | failure => exact State.Ledger.moveTo between state.cursor
  | fatal | unfinished => exact between

/-- A test books nothing. -/
theorem guard (test : Bool) : (Run.guard test : Run grammar Unit).Books size pending holds := by
  intro state _ ledger
  unfold Run.guard
  split <;> exact ledger

section Errors

variable (injective : ∀ rule other, grammar.name rule = grammar.name other -> rule = other)
include injective

/-- A refusal books nothing. -/
theorem force (setup : Setup) (expected : String) (inner : run.Books size pending holds) :
    (Run.force setup expected run).Books size pending holds := by
  intro state held ledger
  have between := inner state held ledger
  unfold Run.force
  generalize run state = ended at between ⊢
  obtain ⟨outcome, reached⟩ := ended
  cases outcome with
  | failure =>
      let missed := Event.forceFailed (setup.buffer.clamped reached.cursor).start expected
      have quiet : missed.Quiet := trivial
      exact (State.Ledger.log between quiet).enteredOnce injective
  | success | fatal | unfinished => exact between

/-- Building a node books nothing but that a schema is asked for. -/
theorem build {Target : Type} (type : String) (make : Result -> Except NodeError Target)
    (value : Result) :
    (Run.build type make value : Run grammar Target).Books size pending holds := by
  intro state _ ledger
  have asked : (state.log (.schemaAsked type)).Ledger size pending [] := ledger.log trivial
  unfold Run.build
  split
  · exact asked
  · exact asked.enteredOnce injective

/-- A repetition books every item. -/
theorem repeated (item : run.Books size pending holds)
    (kept : ∀ state value, holds state -> (run state).1 = .success value -> holds (run state).2)
    (bound : Nat) : (Run.repeated run bound).Books size pending holds := by
  induction bound with
  | zero => exact fun _ _ ledger => ledger.enteredOnce injective
  | succ bound inductionHypothesis =>
      intro state held ledger
      have between := item state held ledger
      have later := kept state
      unfold Run.repeated
      generalize run state = ended at between later ⊢
      obtain ⟨outcome, reached⟩ := ended
      cases outcome with
      | success value =>
          simp only
          split
          · refine inductionHypothesis.andThen_always ?_ reached (later value held rfl) between
            exact fun _ _ _ ledger => ledger
          · exact State.Ledger.reset between state.cursor
      | failure => exact State.Ledger.reset between state.cursor
      | fatal | unfinished => exact between

/-- Being at the end is booked as the run is. -/
theorem toEnd (setup : Setup) (inner : run.Books size pending holds) :
    (run.toEnd setup).Books size pending holds := by
  intro state held ledger
  have between := inner state held ledger
  unfold Run.toEnd
  generalize run state = ended at between ⊢
  obtain ⟨outcome, reached⟩ := ended
  let rejected := Event.parseFailed (setup.buffer.clamped reached.furthest).start
  have quiet : rejected.Quiet := trivial
  cases outcome with
  | success value =>
      simp only
      split
      · exact between
      · exact (State.Ledger.log between quiet).enteredOnce injective
  | failure => exact (State.Ledger.log between quiet).enteredOnce injective
  | fatal | unfinished => exact between

/-- What is replayed is of no account. -/
theorem replay {rule : grammar.Rule} {state : State grammar}
    {replayed : Outcome (grammar.Value rule) × State grammar}
    (hit : Run.replay? rule state = some replayed) (ledger : state.Ledger size pending []) :
    Outcome.Booked size pending replayed := by
  have noted : (state.log (.memoHit (grammar.name rule) state.cursor)).Ledger size pending [] :=
    ledger.log trivial
  cases replays_of_hit hit with
  | failure => exact noted
  | success => exact noted.moveTo _
  | other => exact ledger.enteredOnce injective

end Errors

end Run.Books

section Expressions

variable {setup : Setup} {size : Nat} {pending : Places} {consuming : grammar.Rule -> Prop}
  {callRule : (rule : grammar.Rule) -> Run grammar (grammar.Value rule)}
  {base : MemoStore grammar.Stored}

/-- An expression keeps the ledger if its calls do, the near ones in place and the far ones
behind. -/
theorem Expression.run_books
    (injective : ∀ rule other, grammar.name rule = grammar.name other -> rule = other)
    (sized : size = setup.buffer.tokens.size)
    (advances : ∀ rule, (callRule rule).Advances size consuming (consuming rule))
    (keeps : ∀ rule, (callRule rule).Keeps (State.Beyond base 0)) (bound : Nat) {start : Nat}
    {near far : grammar.Rule -> Prop}
    (nearBooks : ∀ rule, near rule -> (callRule rule).Books size pending fun state =>
      state.Ready size consuming base ∧ state.cursor = start)
    (farBooks : ∀ rule, far rule -> ∀ mark, start < mark ->
      (callRule rule).Books size pending fun state =>
        state.Ready size consuming base ∧ state.cursor = mark)
    (expression : Expression grammar.Rule grammar.Value Result) (jumpless : expression.Jumpless)
    (guarded : expression.Guarded consuming near far) :
    (expression.run setup callRule bound).Books size pending fun state =>
      state.Ready size consuming base ∧ state.cursor = start := by
  induction expression generalizing near start with
  | token matcher => exact .expect setup matcher
  | succeed | fail => exact fun _ _ ledger => ledger
  | skip => exact jumpless.elim
  | both first second firstHypothesis secondHypothesis =>
      obtain ⟨guardedFirst, guardedBehind, guardedInPlace⟩ := guarded
      have firstBooks := firstHypothesis nearBooks farBooks jumpless.1 guardedFirst
      refine firstBooks.andThen fun state left held succeeded ledger => ?_
      obtain ⟨ready, forward⟩ := run_ready sized advances keeps bound first jumpless.1 held.1
      obtain ⟨le, lt⟩ := forward left succeeded
      rw [held.2] at le lt
      have secondBooks : (second.run setup callRule bound).Books size pending fun state' =>
          state'.Ready size consuming base ∧
            state'.cursor = (first.run setup callRule bound state).2.cursor := by
        -- As for ends: in place the near rules are called, further on the far ones.
        rcases Nat.eq_or_lt_of_le le with inPlace | further
        · have guardedSecond := guardedInPlace.resolve_left fun consumes =>
            Nat.lt_irrefl start (inPlace ▸ lt consumes)
          rw [← inPlace]
          exact secondHypothesis nearBooks farBooks jumpless.2 guardedSecond
        · exact secondHypothesis (fun rule isFar => farBooks rule isFar _ further)
            (fun rule isFar mark beyond => farBooks rule isFar mark (by omega)) jumpless.2
            guardedBehind
      refine secondBooks.andThen_always ?_ _ ⟨ready, rfl⟩ ledger
      exact fun _ _ _ ledger => ledger
  | choice first second firstHypothesis secondHypothesis =>
      refine (firstHypothesis nearBooks farBooks jumpless.1 guarded.1).orElse
        (secondHypothesis nearBooks farBooks jumpless.2 guarded.2) fun state held => ?_
      obtain ⟨ready, _⟩ := run_ready sized advances keeps bound first jumpless.1 held.1
      refine ⟨⟨ready.bounded.reset held.1.bounded.cursor, ?_⟩, ?_⟩
      · rw [State.reset_memo]
        exact ready.extended
      · rw [State.reset_cursor]
        exact held.2
  | many item inductionHypothesis =>
      have itemBooks : (item.run setup callRule bound).Books size pending fun state =>
          state.Ready size consuming base ∧ start ≤ state.cursor := by
        rintro state ⟨ready, le⟩
        -- Items behind the first one begin further on.
        rcases Nat.eq_or_lt_of_le le with inPlace | further
        · exact inductionHypothesis nearBooks farBooks jumpless guarded.1 state
            ⟨ready, inPlace.symm⟩
        · exact inductionHypothesis (fun rule isFar => farBooks rule isFar _ further)
            (fun rule isFar mark beyond => farBooks rule isFar mark (by omega)) jumpless guarded.2
            state ⟨ready, rfl⟩
      have repeats := itemBooks.repeated injective (fun state value held succeeded => by
        obtain ⟨ready, forward⟩ := run_ready sized advances keeps bound item jumpless held.1
        exact ⟨ready, Nat.le_trans held.2 (forward value succeeded).1⟩) bound
      exact repeats.weaken fun state held => ⟨held.1, by omega⟩
  | look positive _ inductionHypothesis =>
      exact ((inductionHypothesis nearBooks farBooks jumpless guarded).lookahead
        positive).andThen_always Run.Books.guard
  | force _ expected inductionHypothesis =>
      exact (inductionHypothesis nearBooks farBooks jumpless guarded).force injective setup expected
  | map change _ inductionHypothesis =>
      refine (inductionHypothesis nearBooks farBooks jumpless guarded).andThen_always ?_
      exact fun _ _ _ ledger => ledger
  | build type make _ inductionHypothesis =>
      exact (inductionHypothesis nearBooks farBooks jumpless guarded).andThen_always
        (.build injective type make)
  | call rule => exact nearBooks rule guarded

end Expressions

namespace Run.Books

variable {rule : grammar.Rule} {body : Run grammar (grammar.Value rule)} {size mark : Nat}
  {pending : Places} {consuming : grammar.Rule -> Prop}

section Rules

variable (injective : ∀ rule other, grammar.name rule = grammar.name other -> rule = other)
include injective

/-- A memoized rule that is not replayed is pending while its expression is evaluated. -/
theorem memoized {setup : Setup} (packrat : setup.packrat = true) {state : State grammar}
    (fresh : (grammar.name rule, state.cursor) ∉ pending) (within : state.cursor ≤ size)
    (inner : body.Books size ((grammar.name rule, state.cursor) :: pending) fun later =>
      later.cursor = state.cursor ∧ later.memo = state.memo)
    (ledger : state.Ledger size pending []) :
    Outcome.Booked size pending (Run.memoized setup rule body state) := by
  unfold Run.memoized
  rw [if_pos packrat]
  split
  · rename_i replayed hit
    exact replay injective hit ledger
  · rename_i miss
    have missing := replay?_eq_none_iff.1 miss
    let entered := (state.log (.memoMissed (grammar.name rule) state.cursor false)).log
      (.entered (grammar.name rule) state.cursor)
    have between := inner entered ⟨rfl, rfl⟩ ((ledger.miss missing fresh false).enter within)
    simp only [entered] at between ⊢
    generalize body _ = ended at between ⊢
    obtain ⟨outcome, reached⟩ := ended
    cases outcome with
    | success value => exact State.Ledger.remember between _
    | failure => exact State.Ledger.remember (State.Ledger.moveTo between state.cursor) _
    | fatal | unfinished => exact between

/-- A rule that grows is remembered and no longer pending, and one evaluation is due. -/
theorem grow (growing : grammar.mode rule = .leftRecursive) (within : mark ≤ size)
    (keeps : ∀ base low, body.Keeps (State.Beyond base low))
    (advances : body.Advances size consuming (consuming rule))
    (inner : body.Books size pending fun state => state.Bounded size consuming ∧
      state.cursor = mark ∧ state.memo.find? (grammar.name rule) mark ≠ none)
    (bound : Nat) {accepted : Option (grammar.Value rule × Nat)} {state : State grammar}
    (bounded : state.Bounded size consuming)
    (found : state.memo.find? (grammar.name rule) mark ≠ none)
    (ledger : state.Ledger size pending [(grammar.name rule, mark)]) :
    Outcome.Booked size pending (Run.grow rule body mark bound accepted state) := by
  have books : ∀ {state : State grammar}, state.Bounded size consuming ->
      state.memo.find? (grammar.name rule) mark ≠ none ->
      state.Ledger size pending [(grammar.name rule, mark)] ->
      Outcome.Booked size pending (body (state.enter rule mark)) :=
    fun bounded found ledger => inner _ ⟨(bounded.moveTo within).log _, rfl, found⟩
      ((ledger.moveTo mark).enter within)
  refine grow_induction
    (motive := fun _ _ state ended => state.Bounded size consuming ->
      state.memo.find? (grammar.name rule) mark ≠ none ->
      state.Ledger size pending [(grammar.name rule, mark)] -> Outcome.Booked size pending ended)
    ?_ ?_ ?_ ?_ ?_ bound accepted state bounded found ledger
  · exact fun _ _ _ _ ledger => ledger.enteredOnce injective
  · intro _ _ state value _ succeeded _ later bounded found ledger
    have between :=
      (books bounded found ledger).ledger_of_not_breaksOff (by rw [succeeded]; exact id)
    obtain ⟨boundedLater, forward⟩ :=
      advances (state.enter rule mark) ((bounded.moveTo within).log _)
    obtain ⟨le, lt⟩ := forward value succeeded
    have kept := (keeps state.memo 0 (state.enter rule mark) ⟨.refl _, Nat.zero_le _⟩).1
    have foundLater :
        (body (state.enter rule mark)).2.memo.find? (grammar.name rule) mark ≠ none := by
      obtain ⟨stored, isStored⟩ := Option.ne_none_iff_exists'.1 found
      rw [kept _ _ _ isStored]
      exact nofun
    refine later ((boundedLater.log _).remember injective rule mark ?_) ?_
      ((State.Ledger.grow between growing _).replace foundLater _)
    · rintro _ _ ⟨⟩
      exact ⟨le, boundedLater.cursor, lt⟩
    · rw [State.remember_memo, MemoStore.find?_insert_self]
      exact nofun
  · exact fun _ _ noFurther bounded found ledger =>
      ((books bounded found ledger).ledger_of_not_breaksOff noFurther.not_breaksOff).moveTo _
  · exact fun _ _ _ _ noFurther bounded found ledger =>
      ((books bounded found ledger).ledger_of_not_breaksOff noFurther.not_breaksOff).moveTo _
  · exact fun _ _ _ _ bounded found ledger => books bounded found ledger

/-- A left-recursive rule books one miss, one entry for each round, and the outcome of the last one.
-/
theorem leftRecursive (setup : Setup) (growing : grammar.mode rule = .leftRecursive)
    (keeps : ∀ base low, body.Keeps (State.Beyond base low))
    (advances : body.Advances size consuming (consuming rule)) {state : State grammar}
    (bounded : state.Bounded size consuming)
    (fresh : (grammar.name rule, state.cursor) ∉ pending)
    (inner : body.Books size pending fun later => later.Bounded size consuming ∧
      later.cursor = state.cursor ∧
        later.memo.find? (grammar.name rule) state.cursor ≠ none)
    (ledger : state.Ledger size pending []) :
    Outcome.Booked size pending (Run.leftRecursive setup rule body state) := by
  have seeded : Run.replay? rule state = none ->
      (state.seed rule).Ledger size pending [(grammar.name rule, state.cursor)] :=
    fun miss => (ledger.miss (replay?_eq_none_iff.1 miss) fresh true).remember _
  refine leftRecursive_cases (fun _ hit => replay injective hit ledger)
    (fun miss _ => (seeded miss).enteredOnce injective)
    (fun miss _ => grow injective growing bounded.cursor keeps advances inner _ ?_ ?_ (seeded miss))
  · exact (bounded.log _).remember injective rule state.cursor (fun _ _ seed => by cases seed)
  · rw [State.remember_memo, MemoStore.find?_insert_self]
    exact nofun

end Rules

end Run.Books

/-- No rule that is pending at a mark or behind it can be called from there by a rule: at that
mark all of them rank higher. -/
def Places.Above (pending : Places) (rank : grammar.Rule -> Nat) (rule : grammar.Rule)
    (mark : Nat) : Prop :=
  ∀ other place, (grammar.name other, place) ∈ pending ->
    place < mark ∨ (place = mark ∧ rank rule < rank other)

namespace Grammar.Ranked

variable {consuming : grammar.Rule -> Prop} {slope : Nat} {rank : grammar.Rule -> Nat}

/-- A left-recursive rule is replayed where an outcome of it is remembered. -/
theorem runRule_books_of_found (ranked : grammar.Ranked consuming slope rank) {setup : Setup}
    {size bound : Nat} {rule : grammar.Rule} {pending : Places} {state : State grammar}
    (growing : grammar.mode rule = .leftRecursive)
    (found : state.memo.find? (grammar.name rule) state.cursor ≠ none)
    (ledger : state.Ledger size pending []) :
    Outcome.Booked size pending (grammar.runRule setup bound rule state) := by
  cases bound with
  | zero => exact ledger.enteredOnce ranked.injective
  | succ bound =>
      simp only [Grammar.runRule, Run.inMode, growing, Run.leftRecursive]
      split
      · rename_i replayed hit
        exact Run.Books.replay ranked.injective hit ledger
      · rename_i miss
        exact absurd (Run.replay?_eq_none_iff.1 miss) found

/-- A rule keeps the ledger as long as the rules that are pending rank higher. -/
theorem runRule_books (ranked : grammar.Ranked consuming slope rank) {setup : Setup}
    (packrat : setup.packrat = true) {bound mark : Nat} {rule : grammar.Rule} {pending : Places}
    (above : pending.Above rank rule mark) :
    (grammar.runRule setup bound rule).Books setup.buffer.tokens.size pending fun state =>
      state.Bounded setup.buffer.tokens.size consuming ∧ state.cursor = mark := by
  induction bound generalizing mark rule pending with
  | zero => exact fun _ _ ledger => ledger.enteredOnce ranked.injective
  | succ bound inductionHypothesis =>
      have advances := ranked.toForward.runRule_advances setup bound
      have fresh : (grammar.name rule, mark) ∉ pending := by
        intro isPending
        rcases above rule mark isPending with before | ⟨_, higher⟩ <;> omega
      -- Lower rules may be called in place whatever is pending there, and all others behind.
      have inner : ∀ pending : Places,
          (∀ other place, (grammar.name other, place) ∈ pending ->
            place < mark ∨ (place = mark ∧ rank rule ≤ rank other)) ->
          ((grammar.body rule).run setup (grammar.runRule setup bound) bound).Books
            setup.buffer.tokens.size pending fun state =>
              state.Bounded setup.buffer.tokens.size consuming ∧ state.cursor = mark ∧
                (grammar.mode rule = .leftRecursive ->
                  state.memo.find? (grammar.name rule) mark ≠ none) := by
        intro pending atLeast state held
        obtain ⟨bounded, here, seeded⟩ := held
        refine Expression.run_books ranked.injective rfl advances
          (grammar.runRule_beyond setup state.memo 0 bound) bound ?_ ?_ _ (ranked.jumpless rule)
          (ranked.guarded rule) state ⟨⟨bounded, .refl _⟩, here⟩
        · rintro other (lower | ⟨rfl, growing⟩)
          · refine (@inductionHypothesis mark other pending ?_).weaken fun later held =>
              ⟨held.1.bounded, held.2⟩
            intro higher place isPending
            rcases atLeast higher place isPending with before | ⟨same, le⟩
            · exact .inl before
            · exact .inr ⟨same, Nat.lt_of_lt_of_le lower le⟩
          · rintro later ⟨ready, laterHere⟩ ledger
            refine ranked.runRule_books_of_found growing ?_ ledger
            obtain ⟨stored, isStored⟩ := Option.ne_none_iff_exists'.1 (seeded growing)
            rw [laterHere, ready.extended _ _ _ isStored]
            exact Option.some_ne_none stored
        · intro other _ later further
          refine (@inductionHypothesis later other pending ?_).weaken fun state held =>
            ⟨held.1.bounded, held.2⟩
          intro higher place isPending
          rcases atLeast higher place isPending with before | ⟨rfl, _⟩
          · exact .inl (Nat.lt_trans before further)
          · exact .inl further
      rintro state ⟨bounded, rfl⟩ ledger
      have atLeast : ∀ other place, (grammar.name other, place) ∈ pending ->
          place < state.cursor ∨ (place = state.cursor ∧ rank rule ≤ rank other) := by
        intro other place isPending
        rcases above other place isPending with before | ⟨same, higher⟩
        · exact .inl before
        · exact .inr ⟨same, Nat.le_of_lt higher⟩
      have innerHere := inner pending atLeast
      unfold Grammar.runRule Run.inMode
      cases mode : grammar.mode rule with
      | plain =>
          refine innerHere state ⟨bounded, rfl, fun growing => ?_⟩ ledger
          cases mode.symm.trans growing
      | memoized =>
          refine Run.Books.memoized ranked.injective packrat fresh bounded.cursor ?_ ledger
          refine (inner _ ?_).weaken fun later held => ⟨?_, held.1, fun growing => ?_⟩
          · intro other place isPending
            rcases List.mem_cons.1 isPending with same | before
            · obtain ⟨sameName, rfl⟩ := Prod.mk.inj same
              obtain rfl := ranked.injective _ _ sameName
              exact .inr ⟨rfl, Nat.le_refl _⟩
            · exact atLeast other place before
          · refine ⟨by rw [held.1]; exact bounded.cursor, ?_⟩
            rw [held.2]
            exact bounded.remembered
          · cases mode.symm.trans growing
      | leftRecursive =>
          refine Run.Books.leftRecursive ranked.injective setup mode ?_ ?_ bounded fresh
            (innerHere.weaken fun later held => ⟨held.1, held.2.1, fun _ => held.2.2⟩) ledger
          · intro base low
            exact Expression.run_keeps State.Beyond.lasting setup
              (grammar.runRule_beyond setup base low bound) bound _
          · exact (Expression.run_advances rfl advances bound _
              (ranked.jumpless rule)).weaken (ranked.consumes rule)

end Grammar.Ranked

/-- A step that does not end the parse. -/
def Answer.Settled : Answer grammar -> Prop
  | .moved | .ended _ (.success _) | .ended _ .failure | .ended _ .unfinished => True
  | .ended _ (.fatal _) => False

instance (answer : Answer grammar) : Decidable answer.Settled :=
  match answer with
  | .moved | .ended _ (.success _) | .ended _ .failure | .ended _ .unfinished =>
      inferInstanceAs (Decidable True)
  | .ended _ (.fatal _) => inferInstanceAs (Decidable False)

/-- An evaluation that settles leaves a ledger behind. -/
theorem Outcome.Booked.ledger {size : Nat} {pending : Places} {rule : grammar.Rule}
    {ended : Outcome (grammar.Value rule) × State grammar} (booked : Booked size pending ended)
    (ends : (Answer.ended rule ended.1).Ends) (settled : (Answer.ended rule ended.1).Settled) :
    ended.2.Ledger size pending [] := by
  refine booked.ledger_of_not_breaksOff fun breaks => ?_
  cases outcome : ended.1 with
  | success | failure => exact (outcome ▸ breaks).elim
  | fatal => exact (outcome ▸ settled).elim
  | unfinished => exact (outcome ▸ ends) rfl

namespace Parser

variable {consuming : grammar.Rule -> Prop} {slope : Nat} {rank : grammar.Rule -> Nat}
  {parser : Parser grammar}

/-- From a balanced ledger a rule keeps it so, alone or up to the end of the tokens. -/
theorem runRule_books (ranked : grammar.Ranked consuming slope rank)
    (packrat : parser.setup.packrat = true)
    (bounded : parser.state.Bounded parser.setup.buffer.tokens.size consuming)
    (rule : grammar.Rule) :
    (grammar.runRule parser.setup parser.bound rule).Books parser.setup.buffer.tokens.size []
      (· = parser.state) := by
  have nothing : Places.Above [] rank rule parser.state.cursor := nofun
  refine (ranked.runRule_books packrat nothing).weaken ?_
  rintro _ rfl
  exact ⟨bounded, rfl⟩

/-- However a rule ends that has to use up the tokens, no memoized rule began twice at a mark. -/
theorem parseWith_enteredOnce (ranked : grammar.Ranked consuming slope rank)
    (packrat : parser.setup.packrat = true)
    (bounded : parser.state.Bounded parser.setup.buffer.tokens.size consuming)
    (ledger : parser.state.Ledger parser.setup.buffer.tokens.size [] []) (rule : grammar.Rule) :
    (parser.parseWith (.call rule)).2.state.EnteredOnce := by
  have books := (runRule_books ranked packrat bounded rule).toEnd ranked.injective parser.setup
  exact Outcome.Booked.enteredOnce ranked.injective (books parser.state rfl ledger)

/-- A step that ends without an error leaves the books in order. -/
theorem take_ledger (ranked : grammar.Ranked consuming slope rank)
    (packrat : parser.setup.packrat = true)
    (bounded : parser.state.Bounded parser.setup.buffer.tokens.size consuming)
    (ledger : parser.state.Ledger parser.setup.buffer.tokens.size [] [])
    (step : Step grammar) (ends : (parser.take step).1.Ends)
    (settled : (parser.take step).1.Settled) :
    (parser.take step).2.state.Ledger parser.setup.buffer.tokens.size [] [] := by
  have books := runRule_books ranked packrat bounded
  cases step with
  | reset mark => exact ledger.reset mark
  | evaluate rule => exact (books rule _ rfl ledger).ledger ends settled
  | parseWith rule =>
      exact ((books rule).toEnd ranked.injective parser.setup _ rfl ledger).ledger ends settled

/-- As long as no step of a session ends the parse, the ledger stays balanced. -/
theorem afterSteps_ledger (ranked : grammar.Ranked consuming slope rank)
    (enough : ∀ rule, slope * parser.setup.buffer.tokens.size + rank rule < parser.bound)
    (packrat : parser.setup.packrat = true)
    (bounded : parser.state.Bounded parser.setup.buffer.tokens.size consuming)
    (ledger : parser.state.Ledger parser.setup.buffer.tokens.size [] [])
    {steps : List (Step grammar)}
    (within : ∀ step ∈ steps, step.Within parser.setup.buffer.tokens.size)
    (settled : ∀ report ∈ parser.reports steps, report.answer.Settled) :
    (parser.afterSteps steps).state.Ledger parser.setup.buffer.tokens.size [] [] := by
  induction steps generalizing parser with
  | nil => exact ledger
  | cons step rest inductionHypothesis =>
      obtain ⟨here, behind⟩ := List.forall_mem_cons.1 within
      obtain ⟨settledHere, settledBehind⟩ := List.forall_mem_cons.1 settled
      have ends := take_ends ranked enough bounded step
      have later := take_ledger ranked packrat bounded ledger step ends settledHere
      have boundedLater := take_bounded ranked.toForward bounded here
      have sameSetup := parser.take_setup step
      have sameBound := parser.take_bound step
      rw [← sameSetup] at enough packrat later boundedLater behind ⊢
      rw [← sameBound] at enough
      exact inductionHypothesis enough packrat boundedLater later behind settledBehind

end Parser

end KiwiFront.Peg
