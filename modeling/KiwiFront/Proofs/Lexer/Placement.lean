import KiwiFront.Lexer.Scan
import KiwiFront.Proofs.Lexer.LineTable
import KiwiFront.Proofs.Lexer.MaximalMunch
import Mathlib.Data.List.Forall2

/-!
# From pieces to tokens

Scanning gives every piece that is not skipped the token of its text, and adds nothing but
the encoding in front, and behind the last piece an end marker and perhaps an empty line
break. Which token a piece becomes depends on what stands before it only through the place
where it starts and through whether its line has content already. That place is looked up by
its byte offset; walking along the pieces, one character after the other, leads to the same
place.
-/

namespace KiwiFront

namespace Scan

/-- The token of a line break. It ends one column after its start, on its own row. -/
def lineBreakToken (hasContent : Bool) (text : String) (start : Position) : Token :=
  ⟨if hasContent then .newline else .blankNewline, text, start, ⟨start.row, start.column + 1⟩⟩

/-- The tokens of the pieces that stand after a position, each where the walk along those in
front of it leads. -/
def place (position : Position) (hasContent : Bool) : List Piece -> List Token
  | [] =>
      let closing : List Token :=
        if hasContent then [⟨.newline, "", position, position⟩] else []
      closing ++ [⟨.endMarker, "", position, position⟩]
  | piece :: rest =>
      let after := position.advanceBy piece.characters
      match piece.pieceClass with
      | .skipped => place after hasContent rest
      | .lineBreak => lineBreakToken hasContent piece.text position :: place after false rest
      | .token kind =>
          ⟨kind, piece.text, position, after⟩ :: place after (hasContent || kind != .comment) rest
      | .unrecognized => ⟨.errorToken, piece.text, position, after⟩ :: place after true rest

/-- Whether the line goes on with content after a piece. -/
def contentAfterPiece (hasContent : Bool) (piece : Piece) : Bool :=
  match piece.pieceClass with
  | .skipped => hasContent
  | .lineBreak => false
  | .token kind => hasContent || kind != .comment
  | .unrecognized => true

/-- Whether the line that some pieces end in has content. -/
def contentAfter (hasContent : Bool) (pieces : List Piece) : Bool :=
  pieces.foldl contentAfterPiece hasContent

/-- The token of a piece that starts at a position, if the piece is not skipped. -/
def tokenOf? (position : Position) (hasContent : Bool) (piece : Piece) : Option Token :=
  let stop := position.advanceBy piece.characters
  match piece.pieceClass with
  | .skipped => none
  | .lineBreak => some (lineBreakToken hasContent piece.text position)
  | .token kind => some ⟨kind, piece.text, position, stop⟩
  | .unrecognized => some ⟨.errorToken, piece.text, position, stop⟩

/-- The tokens of some pieces, without what closes them. -/
def placed (position : Position) (hasContent : Bool) : List Piece -> List Token
  | [] => []
  | piece :: rest =>
      (tokenOf? position hasContent piece).toList ++
        placed (position.advanceBy piece.characters) (contentAfterPiece hasContent piece) rest

/-- The empty line break of a last line with content. -/
def closing (hasContent : Bool) (stop : Position) : List Token :=
  if hasContent then [⟨.newline, "", stop, stop⟩] else []

variable {position : Position} {hasContent : Bool} {piece : Piece} {pieces later : List Piece}

theorem place_nil :
    place position hasContent [] =
      closing hasContent position ++ [⟨.endMarker, "", position, position⟩] := rfl

theorem place_cons :
    place position hasContent (piece :: pieces) =
      (tokenOf? position hasContent piece).toList ++
        place (position.advanceBy piece.characters) (contentAfterPiece hasContent piece)
          pieces := by
  obtain ⟨pieceClass, characters⟩ := piece
  cases pieceClass <;> rfl

/-- What follows on some pieces is placed where they stop. -/
theorem place_append :
    place position hasContent (pieces ++ later) =
      placed position hasContent pieces ++
        place (position.advanceBy (pieces.flatMap Piece.characters))
          (contentAfter hasContent pieces) later := by
  induction pieces generalizing position hasContent with
  | nil => rfl
  | cons piece rest inductionHypothesis =>
      rw [List.cons_append, place_cons, inductionHypothesis, placed, List.append_assoc,
        List.flatMap_cons, Position.advanceBy_append]
      rfl

section LookUp

variable {counting : Counting} {source : String}

/-- The walk ends behind all pieces, where the end marker stands. -/
theorem place_endMarker :
    let stop := position.advanceBy (pieces.flatMap Piece.characters)
    ⟨.endMarker, "", stop, stop⟩ ∈ place position hasContent pieces := by
  have walk : place position hasContent (pieces ++ []) = _ := place_append
  rw [List.append_nil, place_nil] at walk
  rw [walk]
  simp

/-- A piece whose span is looked up becomes the token that it becomes on the walk. -/
theorem locate_cons {table : LineTable} {offset : Nat} {tokens : List Token}
    (later : locate counting table (offset + piece.text.utf8ByteSize)
      (contentAfterPiece hasContent piece) pieces = .ok tokens)
    (found : piece.pieceClass ≠ .skipped ->
      table.spanIn? counting offset (offset + piece.text.utf8ByteSize) =
        .ok ⟨position, position.advanceBy piece.characters⟩)
    (counted : piece.pieceClass = .lineBreak ->
      counting.next? position.column = .ok (position.column + 1)) :
    locate counting table offset hasContent (piece :: pieces) =
      .ok ((tokenOf? position hasContent piece).toList ++ tokens) := by
  obtain ⟨pieceClass, characters⟩ := piece
  cases pieceClass with
  | skipped => exact later
  | lineBreak =>
      have found := found (by simp)
      have counted := counted rfl
      simp only [contentAfterPiece] at later
      simp only [locate, found, bind, Except.bind, counted, later]
      rfl
  | token | unrecognized =>
      have found := found (by simp)
      simp only [contentAfterPiece] at later
      simp only [locate, found, bind, Except.bind, later]
      rfl

/-- The places before and behind a piece are reached if its token and the end marker are. Behind
a line break, this is the start of a line. -/
theorem reaches_piece {text : List Char} (leads : piece.Leads text)
    (shown : piece.pieceClass ≠ .skipped)
    (reaches : counting.ReachesTokens (place position hasContent (piece :: pieces))) :
    counting.Reaches position ∧ counting.Reaches (position.advanceBy piece.characters) := by
  have ofToken {token : Token} (becomes : tokenOf? position hasContent piece = some token) :
      counting.Reaches token.start ∧ counting.Reaches token.stop := by
    apply reaches
    rw [place_cons, becomes]
    exact List.mem_cons_self
  unfold tokenOf? at ofToken
  cases pieceClass : piece.pieceClass with
  | skipped => exact absurd pieceClass shown
  | token | unrecognized =>
      rw [pieceClass] at ofToken
      exact ofToken rfl
  | lineBreak =>
      rw [pieceClass] at ofToken
      have atEnd := (reaches _ place_endMarker).1
      have rows : (position.advanceBy piece.characters).row ≤
          (position.advanceBy ((piece :: pieces).flatMap Piece.characters)).row := by
        rw [List.flatMap_cons, Position.advanceBy_append,
          Position.advanceBy_row (position.advanceBy _)]
        omega
      have isStart : position.advanceBy piece.characters =
          ⟨(position.advanceBy piece.characters).row, 1⟩ := by
        rcases leads.lineBreak pieceClass with isFeed | isFeed <;>
          simp [isFeed, Position.advance]
      rw [isStart]
      exact ⟨(ofToken rfl).1, atEnd.lineStart rows⟩

/-- What is looked up by byte offsets is what the walk leads to, as far as rows and columns are
counted. -/
theorem locate_eq_place {front text : List Char} (munched : Piece.Munched text pieces)
    (split : source.toList = front ++ text)
    (reaches : counting.ReachesTokens (place (.behind front) hasContent pieces)) :
    locate counting (.ofSource source) (String.utf8Len front) hasContent pieces =
      .ok (place (.behind front) hasContent pieces) := by
  induction munched generalizing front hasContent with
  | nil =>
      have isEnd : String.utf8Len front =
          min source.utf8ByteSize source.utf8ByteSize := by
        rw [Nat.min_self, ← String.utf8Len_toList, split, List.append_nil]
      have found := LineTable.positionIn?_of_reaches split isEnd (reaches _ place_endMarker).1
      unfold locate
      rw [show (LineTable.ofSource source).source = source from rfl, found]
      rfl
  | @cons piece rest pieces nonempty leads later inductionHypothesis =>
      -- The next piece stands behind this one in the source, in bytes and in characters alike.
      have width : piece.text.utf8ByteSize = String.utf8Len piece.characters := by
        rw [Piece.text, ← String.utf8Len_toList, String.toList_ofList]
      have splitLater : source.toList = front ++ piece.characters ++ rest := by
        rw [split, List.append_assoc]
      have reachesLater : counting.ReachesTokens (place (.behind (front ++ piece.characters))
          (contentAfterPiece hasContent piece) pieces) := by
        intro token member
        refine reaches token ?_
        rw [place_cons, Position.advanceBy_behind]
        exact List.mem_append_right _ member
      have located := inductionHypothesis splitLater reachesLater
      rw [String.utf8Len_append, ← width, ← Position.advanceBy_behind] at located
      rw [place_cons]
      refine locate_cons located (fun shown => ?_) (fun isBreak => ?_)
      · have reached := reaches_piece leads shown reaches
        rw [Position.advanceBy_behind] at reached ⊢
        rw [width]
        exact LineTable.spanIn?_of_reaches splitLater reached.1 reached.2
      · have isToken : tokenOf? (.behind front) hasContent piece =
            some (lineBreakToken hasContent piece.text (.behind front)) := by
          rw [tokenOf?, isBreak]
        have reached := reaches (lineBreakToken hasContent piece.text (.behind front))
        rw [place_cons, isToken] at reached
        exact Counting.next?_of_reaches (reached List.mem_cons_self).2

/-- A walk along the pieces gives the tokens of a text, if all of them are reached. -/
theorem scanIn?_eq_place
    (reaches : counting.ReachesTokens (place .first false (Piece.split source.toList))) :
    scanIn? counting source =
      .ok (encodingToken :: place .first false (Piece.split source.toList)) := by
  have atFirst : Position.behind [] = .first := rfl
  rw [← atFirst] at reaches ⊢
  have located : locate counting (.ofSource source) 0 false (Piece.split source.toList) = _ :=
    locate_eq_place (Piece.split_munched source.toList) rfl reaches
  rw [scanIn?, located]
  rfl

/-- Counted without an end, they are. -/
theorem scan_eq_place (source : String) :
    scan source = encodingToken :: place .first false (Piece.split source.toList) := by
  have endless : scanIn? .endless source = .ok _ := scanIn?_eq_place fun _ _ => ⟨trivial, trivial⟩
  rw [scan, endless]

end LookUp

/-- Numbers of 32 bits make no difference to tokens that they reach. -/
theorem scan?_eq_ok {source : String} (reaches : Counting.int32.ReachesTokens (scan source)) :
    scan? source = .ok (scan source) := by
  rw [scan_eq_place] at reaches ⊢
  exact scanIn?_eq_place fun token member => reaches token (List.mem_cons_of_mem _ member)

/-- Tokens are reached if the columns next to all places along the walk are. -/
theorem place_reaches {counting : Counting} {front : List Char}
    (reaches : ∀ walked, walked <+: pieces.flatMap Piece.characters ->
      counting.Reaches ⟨(Position.behind (front ++ walked)).row,
        (Position.behind (front ++ walked)).column + 1⟩) :
    counting.ReachesTokens (place (.behind front) hasContent pieces) := by
  induction pieces generalizing front hasContent with
  | nil =>
      have here := reaches [] (List.prefix_refl _)
      rw [List.append_nil] at here
      have both := And.intro here.of_next here.of_next
      cases hasContent with
      | false => exact List.forall_mem_singleton.2 both
      | true => exact List.forall_mem_cons.2 ⟨both, List.forall_mem_singleton.2 both⟩
  | cons piece rest inductionHypothesis =>
      rw [List.flatMap_cons] at reaches
      have here := reaches [] List.nil_prefix
      rw [List.append_nil] at here
      have next := reaches piece.characters (List.prefix_append _ _)
      rw [place_cons, Position.advanceBy_behind]
      refine List.forall_mem_append.2 ⟨fun token member => ?_, inductionHypothesis ?_⟩
      · have becomes := Option.mem_toList.1 member
        unfold tokenOf? at becomes
        rw [Position.advanceBy_behind] at becomes
        cases pieceClass : piece.pieceClass with
        | skipped =>
            rw [pieceClass] at becomes
            cases becomes
        | lineBreak =>
            rw [pieceClass] at becomes
            cases becomes
            exact ⟨here.of_next, here⟩
        | token | unrecognized =>
            rw [pieceClass] at becomes
            cases becomes
            exact ⟨here.of_next, next.of_next⟩
      · intro walked isFront
        rw [List.append_assoc]
        exact reaches _ ((List.prefix_append_right_inj _).2 isFront)

/-- Numbers of 32 bits reach the tokens of each text with two characters less than the greatest
of them. -/
theorem scan_reaches {source : String} (short : source.length + 2 ≤ Int32.maxValue.toInt) :
    Counting.int32.ReachesTokens (scan source) := by
  rw [scan_eq_place]
  refine List.forall_mem_cons.2 ⟨by decide, ?_⟩
  have atFirst : Position.behind [] = .first := rfl
  rw [← atFirst]
  refine place_reaches fun walked isFront => ?_
  rw [(Piece.split_munched source.toList).flatten] at isFront
  have length := isFront.length_le
  rw [String.length_toList] at length
  exact Counting.int32_reaches_next (by rw [List.nil_append]; omega)

/-- The tokens of a source text: those of its pieces, and what closes them. -/
theorem scan_eq (source : String) :
    let pieces := Piece.split source.toList
    let stop := Position.first.advanceBy source.toList
    scan source = encodingToken :: placed .first false pieces ++
      closing (contentAfter false pieces) stop ++ [⟨.endMarker, "", stop, stop⟩] := by
  intro pieces stop
  have whole : pieces.flatMap Piece.characters = source.toList :=
    (Piece.split_munched source.toList).flatten
  have placedAll : place .first false (pieces ++ []) = placed .first false pieces ++
      place (Position.first.advanceBy (pieces.flatMap Piece.characters))
        (contentAfter false pieces) [] := place_append
  rw [List.append_nil, whole, place_nil] at placedAll
  rw [scan_eq_place, placedAll, List.cons_append, List.cons_append, List.append_assoc]

end Scan

/-- The kinds of the tokens that pieces of a class become. -/
def PieceClass.Allows (kind : TokenKind) : PieceClass -> Prop
  | skipped => False
  | lineBreak => kind = .newline ∨ kind = .blankNewline
  | token own => kind = own
  | unrecognized => kind = .errorToken

namespace Piece

/-- A token has the text of a piece and a kind that goes with its class. -/
def Becomes (piece : Piece) (token : Token) : Prop :=
  token.text = piece.text ∧ piece.pieceClass.Allows token.kind

/-- Whether a piece is not skipped. -/
def isShown (piece : Piece) : Bool :=
  piece.pieceClass != .skipped

end Piece

namespace Scan

theorem tokenOf?_becomes (position : Position) (hasContent : Bool) (piece : Piece) :
    List.Forall₂ Piece.Becomes ([piece].filter Piece.isShown)
      (tokenOf? position hasContent piece).toList := by
  obtain ⟨pieceClass, characters⟩ := piece
  cases pieceClass with
  | skipped => exact .nil
  | lineBreak =>
      refine .cons ⟨rfl, ?_⟩ .nil
      cases hasContent
      · exact .inr rfl
      · exact .inl rfl
  | token | unrecognized => exact .cons ⟨rfl, rfl⟩ .nil

/-- Pieces that are not skipped become tokens one by one. -/
theorem placed_becomes (position : Position) (hasContent : Bool) (pieces : List Piece) :
    List.Forall₂ Piece.Becomes (pieces.filter Piece.isShown)
      (placed position hasContent pieces) := by
  induction pieces generalizing position hasContent with
  | nil => exact .nil
  | cons piece rest inductionHypothesis =>
      rw [← List.singleton_append, List.filter_append]
      exact List.rel_append (tokenOf?_becomes position hasContent piece)
        (inductionHypothesis _ _)

end Scan

/-- Scanning loses nothing and munches maximally. A source text is the concatenation of
pieces that are munched from it one by one. Skipped pieces are blanks and continued line
breaks; all others become the tokens between the encoding and the end marker, in order, but
for an empty line break that may close the last line. -/
theorem scan_munches (source : String) :
    ∃ pieces tokens closing stop,
      pieces.flatMap Piece.characters = source.toList ∧
      Piece.Munched source.toList pieces ∧
      (∀ piece ∈ pieces, piece.pieceClass = .skipped ->
        LexicalRule.blank.Matches piece.characters ∨
          LexicalRule.continuation.Matches piece.characters) ∧
      scan source = Scan.encodingToken :: tokens ++ closing ++ [⟨.endMarker, "", stop, stop⟩] ∧
      (closing = [] ∨ closing = [⟨.newline, "", stop, stop⟩]) ∧
      List.Forall₂ Piece.Becomes (pieces.filter Piece.isShown) tokens := by
  have munched := Piece.split_munched source.toList
  refine ⟨_, _, _, _, munched.flatten, munched, munched.skipped, Scan.scan_eq source, ?_,
    Scan.placed_becomes _ _ _⟩
  unfold Scan.closing
  split
  · exact .inr rfl
  · exact .inl rfl

end KiwiFront
