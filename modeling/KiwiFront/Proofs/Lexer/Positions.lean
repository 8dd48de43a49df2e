import KiwiFront.Lexer.Coverage
import Mathlib.Data.List.Induction

/-!
# Positions along a text

Going on from a position by a text leads to another one: every line feed begins a row, and any
other character is one column wide. From the first position, this is the place behind the text.
-/

namespace KiwiFront

namespace Position

theorem lt_of_lt_of_le {left middle right : Position} (first : left < middle)
    (second : middle ≤ right) : left < right := by
  rw [lt_iff] at *
  rw [le_iff] at second
  omega

theorem lt_irrefl (position : Position) : ¬ position < position := by
  rw [lt_iff]
  omega

theorem le_of_lt {left right : Position} (before : left < right) : left ≤ right := by
  rw [lt_iff] at before
  rw [le_iff]
  omega

/-- Where one character after the other leads from the beginning of a text. -/
theorem advanceBy_first (text : List Char) : first.advanceBy text = behind text := by
  induction text using List.reverseRecOn with
  | nil => rfl
  | append_singleton front character inductionHypothesis =>
      rw [advanceBy_append, inductionHypothesis, advanceBy_cons, advanceBy_nil, advance, behind,
        behind, List.reverse_concat, List.takeWhile_cons, List.count_append]
      by_cases isFeed : character = '\n'
      · simp [isFeed]
        omega
      · simp [isFeed]
        omega

/-- The place behind a text follows from the place behind its front. -/
theorem advanceBy_behind (front text : List Char) :
    (behind front).advanceBy text = behind (front ++ text) := by
  rw [← advanceBy_first, ← advanceBy_first, advanceBy_append]

/-- Text without a line feed goes on in its row. -/
theorem advanceBy_of_not_mem (position : Position) {text : List Char} (oneLine : '\n' ∉ text) :
    position.advanceBy text = ⟨position.row, position.column + text.length⟩ := by
  induction text generalizing position with
  | nil => simp
  | cons character rest inductionHypothesis =>
      rw [List.mem_cons, not_or] at oneLine
      rw [advanceBy_cons, inductionHypothesis _ oneLine.2, advance, if_neg (Ne.symm oneLine.1)]
      simp
      omega

/-- Every line feed begins a row. -/
theorem advanceBy_row (position : Position) (text : List Char) :
    (position.advanceBy text).row = position.row + text.count '\n' := by
  induction text generalizing position with
  | nil => simp
  | cons character rest inductionHypothesis =>
      rw [advanceBy_cons, inductionHypothesis, advance]
      by_cases isFeed : character = '\n'
      · simp only [isFeed, if_true, List.count_cons_self]
        omega
      · simp [isFeed]

theorem le_advanceBy (position : Position) (text : List Char) :
    position ≤ position.advanceBy text := by
  induction text generalizing position with
  | nil => exact position.le_refl
  | cons character rest inductionHypothesis =>
      exact le_trans (le_of_lt (position.lt_advance character)) (inductionHypothesis _)

/-- Some columns further on is not beyond a text of as many characters. -/
theorem right_le_advanceBy (position : Position) (text : List Char) :
    ⟨position.row, position.column + text.length⟩ ≤ position.advanceBy text := by
  by_cases hasFeed : '\n' ∈ text
  · have rows := position.advanceBy_row text
    have positive := List.count_pos_iff.2 hasFeed
    refine .inl ?_
    rw [rows]
    change position.row < _
    omega
  · rw [advanceBy_of_not_mem position hasFeed]
    exact le_refl _

end Position

end KiwiFront
