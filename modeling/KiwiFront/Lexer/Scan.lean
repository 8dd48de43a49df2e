import KiwiFront.Lexer.Piece
import KiwiFront.LineTable

/-!
# Scanning

The raw token sequence of a source text names its encoding first and ends with an
end marker. In between stands one token for every piece that is not skipped. A
line break closes a line with content as `newline` and a line without content as
`blankNewline`; comments are no content. A last line with content that has no
line break is closed by an empty `newline`.

Where a piece starts and stops is known in bytes. A line table turns these offsets
into positions.
-/

namespace KiwiFront

namespace Scan

/-- Gives the pieces that stand from a byte offset on their places. `hasContent` tells
whether the current line has content already. -/
def locate (counting : Counting) (table : LineTable) (offset : Nat) (hasContent : Bool) :
    List Piece -> Except OffsetError (List Token)
  | [] => do
      let stop ← table.positionIn? counting table.source.utf8ByteSize
      let closing : List Token := if hasContent then [⟨.newline, "", stop, stop⟩] else []
      return closing ++ [⟨.endMarker, "", stop, stop⟩]
  | piece :: rest =>
      let next := offset + piece.text.utf8ByteSize
      match piece.pieceClass with
      | .skipped => locate counting table next hasContent rest
      | .lineBreak => do
          let span ← table.spanIn? counting offset next
          -- Line breaks end one column after their start, on their own row.
          let column ← counting.next? span.start.column
          let kind := if hasContent then .newline else .blankNewline
          let later ← locate counting table next false rest
          return ⟨kind, piece.text, span.start, ⟨span.start.row, column⟩⟩ :: later
      | .token kind => do
          let span ← table.spanIn? counting offset next
          let later ← locate counting table next (hasContent || kind != .comment) rest
          return ⟨kind, piece.text, span.start, span.stop⟩ :: later
      | .unrecognized => do
          let span ← table.spanIn? counting offset next
          let later ← locate counting table next true rest
          return ⟨.errorToken, piece.text, span.start, span.stop⟩ :: later

/-- The token in front of every raw sequence. It stands before the first row. -/
def encodingToken : Token := ⟨.encoding, "utf-8", ⟨0, 0⟩, ⟨0, 0⟩⟩

end Scan

/-- The raw tokens of a source text, nothing left out, if rows and columns are counted
that far. -/
def scanIn? (counting : Counting) (source : String) : Except OffsetError (List Token) := do
  let tokens ←
    Scan.locate counting (LineTable.ofSource source) 0 false (Piece.split source.toList)
  return Scan.encodingToken :: tokens

/-- The raw tokens of a source text, with positions in numbers of 32 bits. -/
def scan? (source : String) : Except OffsetError (List Token) :=
  scanIn? .int32 source

/-- The raw tokens of a source text, with positions that are counted without an end. No
piece starts or stops within a character, so that each of them has a place. -/
def scan (source : String) : List Token :=
  match scanIn? .endless source with
  | .ok tokens => tokens
  | .error _ => []

end KiwiFront
