import KiwiFront.Proofs.Peg.Invariance

/-!
# What a profile counts

A profile is a summary of events: it counts those of each kind, and the evaluations of each
rule. The marks at which a rule was evaluated, and those at which it grew, can be listed, so
that what is counted at each mark adds up to what is counted in all.
-/

namespace KiwiFront.Peg

namespace Event

/-- The mark where a rule was evaluated, if that is what happened. -/
def entryOf? (rule : String) : Event -> Option Nat
  | .entered other mark => if other = rule then some mark else none
  | _ => none

/-- The mark from which a rule grew, if that is what happened. -/
def growthOf? (rule : String) : Event -> Option Nat
  | .grew other start _ => if other = rule then some start else none
  | _ => none

/-- Whether no outcome was remembered. -/
def isMiss : Event -> Bool
  | .memoMissed _ _ _ => true
  | _ => false

/-- Whether a rule grew. -/
def isGrowth : Event -> Bool
  | .grew _ _ _ => true
  | _ => false

/-- Events that are neither a miss nor an evaluation nor a growth. -/
def Quiet : Event -> Prop
  | .memoMissed _ _ _ | .entered _ _ | .grew _ _ _ => False
  | .backtracked | .memoHit _ _ | .forceFailed _ _ | .parseFailed _ | .schemaAsked _ => True

end Event

namespace Profile

/-- Counting a rule once more raises its own count and no other. -/
theorem lookup_countRule (rule other : String) (counts : List (String × Nat)) :
    ((countRule rule counts).lookup other).getD 0 =
      (counts.lookup other).getD 0 + if rule = other then 1 else 0 := by
  induction counts with
  | nil =>
      by_cases same : rule = other
      · simp [countRule, same]
      · have different : ¬ other = rule := fun equal => same equal.symm
        simp [countRule, List.lookup_cons, beq_eq_false_iff_ne.2 different, same]
  | cons entry rest inductionHypothesis =>
      obtain ⟨key, count⟩ := entry
      by_cases hit : rule = key
      · subst hit
        by_cases same : rule = other
        · simp [countRule, same]
        · have different : ¬ other = rule := fun equal => same equal.symm
          simp [countRule, List.lookup_cons, beq_eq_false_iff_ne.2 different, same]
      · by_cases here : other = key
        · subst here
          simp [countRule, hit]
        · simp [countRule, List.lookup_cons, hit, beq_eq_false_iff_ne.2 here, inductionHypothesis]

/-- A profile is built one event after the other. -/
theorem ofEvents_concat (events : List Event) (event : Event) :
    ofEvents (events ++ [event]) = (ofEvents events).record event := by
  rw [ofEvents, List.foldl_append]
  rfl

/-- An event raises a rule's invocations by one exactly if it enters that rule. -/
theorem invocationsOf_record (profile : Profile) (event : Event) (rule : String) :
    (profile.record event).invocationsOf rule =
      profile.invocationsOf rule + (event.entryOf? rule).toList.length := by
  cases event with
  | entered other mark =>
      unfold invocationsOf record
      rw [lookup_countRule, Event.entryOf?]
      split <;> rfl
  | _ => rfl

/-- An event raises the misses by one exactly if it is a miss. -/
theorem memoMisses_record (profile : Profile) (event : Event) :
    (profile.record event).memoMisses =
      profile.memoMisses + if event.isMiss then 1 else 0 := by
  cases event <;> rfl

/-- An event raises the growths by one exactly if it is a growth. -/
theorem growths_record (profile : Profile) (event : Event) :
    (profile.record event).growths = profile.growths + if event.isGrowth then 1 else 0 := by
  cases event <;> rfl

end Profile

namespace State

variable {grammar : Grammar} {state : State grammar}

/-- The marks at which a rule was evaluated, the latest one first. -/
def entries (state : State grammar) (rule : String) : List Nat :=
  state.events.filterMap (Event.entryOf? rule)

/-- The marks from which a rule grew, the latest one first. -/
def growths (state : State grammar) (rule : String) : List Nat :=
  state.events.filterMap (Event.growthOf? rule)

/-- How often no outcome was remembered. -/
def misses (state : State grammar) : Nat :=
  state.events.countP Event.isMiss

section Profile

/-- The profile of a state that is no longer a new one takes its last event into account. -/
theorem profile_cons (cursor furthest : Nat)
    (memo : MemoStore grammar.Stored) (event : Event)
    (events : List Event) :
    State.profile ⟨cursor, furthest, memo, event :: events⟩ =
      (State.profile (⟨cursor, furthest, memo, events⟩ : State grammar)).record event := by
  simp only [profile, List.reverse_cons, Profile.ofEvents_concat]

/-- The invocations in a profile are the entries in the log. -/
theorem invocationsOf_profile (state : State grammar) (rule : String) :
    state.profile.invocationsOf rule = (state.entries rule).length := by
  obtain ⟨cursor, furthest, memo, events⟩ := state
  induction events with
  | nil => rfl
  | cons event events inductionHypothesis =>
      rw [profile_cons, Profile.invocationsOf_record, inductionHypothesis]
      unfold entries
      cases happened : event.entryOf? rule with
      | none => simp [List.filterMap_cons_none happened]
      | some mark => simp [List.filterMap_cons_some happened]

/-- The misses in a profile are the misses in the log. -/
theorem memoMisses_profile (state : State grammar) : state.profile.memoMisses = state.misses := by
  obtain ⟨cursor, furthest, memo, events⟩ := state
  induction events with
  | nil => rfl
  | cons event events inductionHypothesis =>
      rw [profile_cons, Profile.memoMisses_record, inductionHypothesis]
      exact List.countP_cons.symm

/-- Where only one rule grows, the profile lists how often it did. -/
theorem growths_profile (state : State grammar) {rule : String}
    (only : ∀ other start stop, Event.grew other start stop ∈ state.events -> other = rule) :
    state.profile.growths = (state.growths rule).length := by
  obtain ⟨cursor, furthest, memo, events⟩ := state
  induction events with
  | nil => rfl
  | cons event events inductionHypothesis =>
      have before := inductionHypothesis fun other start stop member =>
        only other start stop (List.mem_cons_of_mem _ member)
      rw [profile_cons, Profile.growths_record, before]
      unfold growths
      cases event with
      | grew other start stop =>
          obtain rfl := only other start stop List.mem_cons_self
          simp [Event.growthOf?, Event.isGrowth]
      | _ => rfl

/-- What is listed is what happened. -/
theorem count_entries (state : State grammar) (rule : String) (mark : Nat) :
    (state.entries rule).count mark = state.events.count (.entered rule mark) := by
  rw [entries, List.count_filterMap, List.count]
  apply List.countP_congr
  intro event _
  cases event with
  | entered other place =>
      by_cases same : other = rule <;> simp [Event.entryOf?, same]
  | _ => simp [Event.entryOf?]

end Profile

section Steps

variable (state : State grammar) (rule : String)

@[simp] theorem entries_remember (name : String) (mark : Nat)
    (outcome : Cached grammar.Stored) :
    (state.remember name mark outcome).entries rule = state.entries rule := rfl
@[simp] theorem growths_remember (name : String) (mark : Nat)
    (outcome : Cached grammar.Stored) :
    (state.remember name mark outcome).growths rule = state.growths rule := rfl
@[simp] theorem misses_remember (name : String) (mark : Nat)
    (outcome : Cached grammar.Stored) :
    (state.remember name mark outcome).misses = state.misses := rfl

/-- Logging an event adds the entry it stands for, if it is one. -/
theorem entries_log (event : Event) :
    (state.log event).entries rule = (event.entryOf? rule).toList ++ state.entries rule := by
  unfold entries log
  cases happened : event.entryOf? rule with
  | none => simp [List.filterMap_cons_none happened]
  | some mark => simp [List.filterMap_cons_some happened]

/-- Logging an event adds the growth it stands for, if it is one. -/
theorem growths_log (event : Event) :
    (state.log event).growths rule = (event.growthOf? rule).toList ++ state.growths rule := by
  unfold growths log
  cases happened : event.growthOf? rule with
  | none => simp [List.filterMap_cons_none happened]
  | some mark => simp [List.filterMap_cons_some happened]

/-- Logging an event adds a miss if it is one. -/
theorem misses_log (event : Event) :
    (state.log event).misses = state.misses + if event.isMiss then 1 else 0 :=
  List.countP_cons

end Steps

end State

end KiwiFront.Peg
