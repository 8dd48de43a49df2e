import Std.Data.TreeMap.Basic
import Std.Data.TreeMap.Lemmas

/-!
# Memo stores

A memo store remembers, for a rule and the mark it was tried at, whether the rule
failed there or with which value and end it succeeded. A new outcome replaces an
old one. Entries are kept in rows, one row for every mark.
-/

namespace KiwiFront.Peg

/-- A remembered outcome of a rule at a mark. -/
inductive Cached (Value : Type) where
  | failure
  | success (value : Value) (stop : Nat)

/-- Outcomes by the name of a rule and a mark. -/
structure MemoStore (Value : Type) where
  rows : Std.TreeMap Nat (List (String × Cached Value))
  /-- How many pairs of a rule and a mark have an outcome. -/
  size : Nat

namespace MemoStore

variable {Value : Type}

/-- A store without entries. -/
def empty : MemoStore Value := ⟨∅, 0⟩

/-- The outcomes of all rules at one mark. -/
def row (store : MemoStore Value) (mark : Nat) : List (String × Cached Value) :=
  store.rows.getD mark []

/-- The remembered outcome of a rule at a mark. -/
def find? (store : MemoStore Value) (rule : String) (mark : Nat) : Option (Cached Value) :=
  (store.row mark).lookup rule

/-- Whether a store has no entries. -/
def isEmpty (store : MemoStore Value) : Bool :=
  store.size == 0

/-- Replaces the outcome of a rule in a row, or adds it. -/
def putInRow (rule : String) (outcome : Cached Value) :
    List (String × Cached Value) -> List (String × Cached Value)
  | [] => [(rule, outcome)]
  | (other, kept) :: rest =>
      if rule = other then (rule, outcome) :: rest else (other, kept) :: putInRow rule outcome rest

/-- Remembers an outcome. -/
def insert (store : MemoStore Value) (rule : String) (mark : Nat) (outcome : Cached Value) :
    MemoStore Value where
  rows := store.rows.insert mark (putInRow rule outcome (store.row mark))
  size := if (store.find? rule mark).isSome then store.size else store.size + 1

theorem lookup_putInRow (rule other : String) (outcome : Cached Value)
    (row : List (String × Cached Value)) :
    (putInRow rule outcome row).lookup other =
      if other = rule then some outcome else row.lookup other := by
  induction row with
  | nil =>
      by_cases same : other = rule
      · simp [putInRow, same]
      · simp [putInRow, List.lookup_cons, same, beq_eq_false_iff_ne.2 same]
  | cons entry rest inductionHypothesis =>
      obtain ⟨key, kept⟩ := entry
      by_cases hit : rule = key
      · subst hit
        by_cases same : other = rule
        · simp [putInRow, same]
        · simp [putInRow, List.lookup_cons, same, beq_eq_false_iff_ne.2 same]
      · by_cases here : other = key
        · subst here
          have different : ¬ other = rule := fun equal => hit equal.symm
          simp [putInRow, hit, different]
        · simp [putInRow, List.lookup_cons, hit, beq_eq_false_iff_ne.2 here, inductionHypothesis]

@[simp] theorem find?_empty (rule : String) (mark : Nat) :
    (empty : MemoStore Value).find? rule mark = none := by
  simp [find?, row, empty, Std.TreeMap.getD_emptyc]

/-- Inserting changes the outcome at one rule and mark only. -/
theorem find?_insert (store : MemoStore Value) (rule other : String) (mark place : Nat)
    (outcome : Cached Value) :
    (store.insert rule mark outcome).find? other place =
      if other = rule ∧ place = mark then some outcome else store.find? other place := by
  by_cases here : place = mark
  · subst here
    simp [find?, row, insert, lookup_putInRow]
  · have elsewhere : ¬ mark = place := fun equal => here equal.symm
    simp [find?, row, insert, Std.TreeMap.getD_insert, elsewhere, here]

end MemoStore

end KiwiFront.Peg
