import KiwiFront.Lexer.Pattern

/-!
# Longest match

Several labelled patterns are run side by side over a text. The winner is the
one that describes the longest prefix; between patterns that describe the same
prefix, the one listed first wins.
-/

namespace KiwiFront

variable {Label : Type}

namespace LongestMatch

/-- What is left of each pattern after a character. Patterns that describe
nothing any more are dropped. -/
def advance (character : Char) (live : List (Label × Pattern)) : List (Label × Pattern) :=
  live.filterMap fun (label, pattern) =>
    match pattern.derivative character with
    | .never => none
    | residual => some (label, residual)

/-- The label of the first pattern that describes the empty text. -/
def accepted? (live : List (Label × Pattern)) : Option Label :=
  (live.find? (fun (_, pattern) => pattern.acceptsEmpty)).map Prod.fst

/-- The longest prefix, possibly empty, that some pattern describes: the label of
that pattern and the length of the prefix. -/
def run? (live : List (Label × Pattern)) : List Char -> Option (Label × Nat)
  | [] => (accepted? live).map (·, 0)
  | character :: rest =>
      let next := advance character live
      let longer := if next.isEmpty then none else run? next rest
      match longer with
      | some (label, length) => some (label, length + 1)
      | none => (accepted? live).map (·, 0)

/-- The longest non-empty prefix of `character :: rest` that some pattern
describes: the label of that pattern and how much of `rest` the prefix covers. -/
def of? (patterns : List (Label × Pattern)) (character : Char) (rest : List Char) :
    Option (Label × Nat) :=
  run? (advance character patterns) rest

end LongestMatch

end KiwiFront
