/-!
# Aligned columns

A text narrower than its column is padded with spaces, on the left or on the
right; a wider text is left as it is. Width counts characters.
-/

namespace KiwiFront.Text

/-- Pads on the left, so that the text ends at the column's right edge. -/
def alignRight (width : Nat) (text : String) : String :=
  String.ofList (List.replicate (width - text.length) ' ') ++ text

/-- Pads on the right, so that the text starts at the column's left edge. -/
def alignLeft (width : Nat) (text : String) : String :=
  text ++ String.ofList (List.replicate (width - text.length) ' ')

/-- The first `count` characters of a text, or all of a shorter one. -/
def firstCharacters (count : Nat) (text : String) : String :=
  String.ofList (text.toList.take count)

end KiwiFront.Text
