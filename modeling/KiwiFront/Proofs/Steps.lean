import Mathlib.Data.List.Forall2

/-!
# Computations that may fail

A computation that goes on only with the value of another one succeeds if both do, and one that
goes along a list succeeds if it does for each item. What has been found out of a value by running
a computation is found out of every value that it may have.
-/

namespace KiwiFront

/-- A computation that succeeds does so step by step. -/
theorem steps_of_bind_ok {Cause Source Target : Type} {first : Except Cause Source}
    {next : Source -> Except Cause Target} {target : Target}
    (succeeded : first >>= next = .ok target) :
    ∃ source, first = .ok source ∧ next source = .ok target := by
  cases first with
  | error cause => cases succeeded
  | ok source => exact ⟨source, rfl, succeeded⟩

theorem bind_ok_of_steps {Cause Source Target : Type} {first : Except Cause Source}
    {next : Source -> Except Cause Target} {source : Source} {target : Target}
    (here : first = .ok source) (there : next source = .ok target) :
    first >>= next = .ok target := by
  rw [here]
  exact there

theorem exists_of_map_ok {Cause Source Target : Type} {result : Except Cause Source}
    {change : Source -> Target} {target : Target} (changed : result.map change = .ok target) :
    ∃ source, result = .ok source ∧ change source = target := by
  cases result with
  | error cause => cases changed
  | ok source => exact ⟨source, rfl, Except.ok.inj changed⟩

theorem eq_of_ok {Cause Target : Type} {result : Except Cause Target} {left right : Target}
    (isLeft : result = .ok left) (isRight : result = .ok right) : left = right :=
  Except.ok.inj (isLeft.symm.trans isRight)

/-- What is related to each item of a list makes up a list. -/
theorem exists_forall₂ {Source Target : Type} {related : Source -> Target -> Prop}
    {sources : List Source} (each : ∀ source ∈ sources, ∃ target, related source target) :
    ∃ targets, List.Forall₂ related sources targets := by
  induction sources with
  | nil => exact ⟨[], .nil⟩
  | cons source rest inductionHypothesis =>
      obtain ⟨⟨target, here⟩, behind⟩ := List.forall_mem_cons.1 each
      obtain ⟨targets, others⟩ := inductionHypothesis behind
      exact ⟨target :: targets, .cons here others⟩

/-- A computation along a list succeeds with the values that it has for the items. -/
theorem mapM_eq_ok_iff {Cause Source Target : Type} {compute : Source -> Except Cause Target}
    {sources : List Source} {targets : List Target} :
    sources.mapM compute = .ok targets ↔
      List.Forall₂ (fun source target => compute source = .ok target) sources targets := by
  constructor
  · intro succeeded
    induction sources generalizing targets with
    | nil =>
        cases succeeded
        exact .nil
    | cons source rest inductionHypothesis =>
        rw [List.mapM_cons] at succeeded
        obtain ⟨first, here, remaining⟩ := steps_of_bind_ok succeeded
        obtain ⟨others, behind, built⟩ := steps_of_bind_ok remaining
        cases built
        exact .cons here (inductionHypothesis behind)
  · intro each
    induction each with
    | nil => rfl
    | cons here _ inductionHypothesis =>
        rw [List.mapM_cons, here, inductionHypothesis]
        rfl

/-- Looking up one name after the other succeeds with entries of these names that are there. -/
theorem mapM_eq_ok_iff_of_lookup {Cause Value : Type} {names : List String}
    {held : List (String × Value)} {look : String -> Except Cause (String × Value)}
    {isHeld : String × Value -> Prop}
    (looks : ∀ name entry, look name = .ok entry ↔ name = entry.1 ∧ isHeld entry) :
    names.mapM look = .ok held ↔ names = held.map Prod.fst ∧ ∀ entry ∈ held, isHeld entry := by
  simp only [mapM_eq_ok_iff, looks]
  constructor
  · intro each
    induction each with
    | nil => exact ⟨rfl, fun _ member => absurd member List.not_mem_nil⟩
    | cons here _ inductionHypothesis =>
        obtain ⟨rfl, isHeld⟩ := here
        obtain ⟨rfl, others⟩ := inductionHypothesis
        exact ⟨rfl, List.forall_mem_cons.2 ⟨isHeld, others⟩⟩
  · rintro ⟨rfl, each⟩
    rw [List.forall₂_map_left_iff, List.forall₂_same]
    exact fun entry member => ⟨rfl, each entry member⟩

end KiwiFront
