import KiwiFront.Proofs.Grammar.Acceptance
import KiwiFront.Proofs.Lexer.Condense
import KiwiFront.Proofs.Lexer.Lines
import KiwiFront.Proofs.Tree.Locating

/-!
# The tokens that reach the parser

Whatever the source text, its tokens are as the parser needs them: each has a place, only an
operator has the text of one, and the end marker comes last and nowhere else.
-/

namespace KiwiFront

open Peg

/-- No row of a text is that of the position which is not located. -/
theorem Position.isLocated_of_row {position : Position} (inText : 0 ≤ position.row) :
    position.isLocated = true := by
  have notUnlocated : position ≠ .unlocated := by
    rintro rfl
    exact absurd inText (by decide)
  exact bne_iff_ne.2 notUnlocated

/-- Text only leads further down. -/
theorem Position.advanceBy_row_nonneg {position : Position} (inText : 0 ≤ position.row)
    (text : List Char) : 0 ≤ (position.advanceBy text).row := by
  rw [advanceBy_row]
  omega

namespace LexicalRule

/-- The operators that the parser knows, as single characters. -/
def signs : List (Char × TokenKind) :=
  [('.', .dot), ('*', .star), (';', .semicolon), ('(', .leftParen), (')', .rightParen),
    (':', .colon)]

/-- The operators of the language are single characters. -/
theorem operators_eq_signs :
    KiwiGrammar.operators = signs.map fun sign => (String.ofList [sign.1], sign.2) := by
  decide

/-- A pattern describes a character if nothing more has to follow it. -/
theorem matches_singleton_iff {pattern : Pattern} {character : Char} :
    pattern.Matches [character] ↔ (pattern.derivative character).acceptsEmpty = true :=
  (Pattern.matches_derivative_iff pattern).symm.trans
    (Pattern.acceptsEmpty_iff (pattern.derivative character)).symm

/-- Every sign is described by a rule of its own. -/
theorem all_sign : ∀ sign ∈ signs, ∃ rule ∈ all,
    (rule.2.derivative sign.1).acceptsEmpty = true := by decide

/-- No other rule describes a sign. -/
theorem all_only_sign : ∀ rule ∈ all, ∀ sign ∈ signs,
    (rule.2.derivative sign.1).acceptsEmpty = true -> rule.1 = .token sign.2 := by decide

end LexicalRule

namespace Piece

open LongestMatch

/-- Whether a piece with the text of an operator is that operator. -/
def IsSigned (piece : Piece) : Prop :=
  ∀ entry ∈ KiwiGrammar.operators, piece.text = entry.1 -> piece.pieceClass = .token entry.2

/-- What is munched is not the text of an operator, unless it is one: only the rule of an
operator describes it, and it does not go unrecognized. -/
theorem Leads.isSigned {piece : Piece} {text : List Char} (leads : piece.Leads text)
    (isFront : piece.characters <+: text) : piece.IsSigned := by
  rw [IsSigned, LexicalRule.operators_eq_signs, List.forall_mem_map]
  intro sign listed sameText
  have isSign : piece.characters = [sign.1] := String.ofList_injective sameText
  have unmatched_false : ¬ Unmatched LexicalRule.all text := by
    intro unmatched
    obtain ⟨rule, member, accepts⟩ := LexicalRule.all_sign sign listed
    rw [isSign] at isFront
    exact unmatched rule.1 _ isFront ⟨rule.2, member, LexicalRule.matches_singleton_iff.2 accepts⟩
  cases leads with
  | recognized _ longest =>
      obtain ⟨pattern, member, described⟩ := longest.described
      simp only at isSign
      rw [isSign] at described
      exact LexicalRule.all_only_sign _ member sign listed
        (LexicalRule.matches_singleton_iff.1 described)
  | openString unmatched => exact absurd unmatched unmatched_false
  | alone unmatched => exact absurd unmatched unmatched_false

/-- What is munched has the class of an operator wherever it has the text of one. -/
theorem Munched.isSigned {text : List Char} {pieces : List Piece} (munched : Munched text pieces) :
    ∀ piece ∈ pieces, piece.IsSigned := by
  induction munched with
  | nil => exact fun _ member => (List.not_mem_nil member).elim
  | cons _ leads _ inductionHypothesis =>
      exact List.forall_mem_cons.2 ⟨leads.isSigned (List.prefix_append _ _), inductionHypothesis⟩

end Piece

/-- A kind that goes with a piece is that of the operator whose text the piece has. -/
theorem Piece.IsSigned.kind {piece : Piece} (isSigned : piece.IsSigned) {kind : TokenKind}
    (allowed : piece.pieceClass.Allows kind) {entry : String × TokenKind}
    (listed : entry ∈ KiwiGrammar.operators) (sameText : piece.text = entry.1) :
    kind = entry.2 := by
  rw [isSigned entry listed sameText] at allowed
  exact allowed

namespace Scan

/-- A token is located wherever it is placed in the text. -/
theorem tokenOf?_located {position : Position} (inText : 0 ≤ position.row) (hasContent : Bool)
    (piece : Piece) :
    ∀ token ∈ tokenOf? position hasContent piece, token.span.isLocated = true := by
  have start := Position.isLocated_of_row inText
  have next : (⟨position.row, position.column + 1⟩ : Position).isLocated = true :=
    Position.isLocated_of_row inText
  have stop := Position.isLocated_of_row (Position.advanceBy_row_nonneg inText piece.characters)
  intro token becomes
  unfold tokenOf? at becomes
  cases pieceClass : piece.pieceClass with
  | skipped =>
      rw [pieceClass] at becomes
      cases becomes
  | lineBreak =>
      rw [pieceClass] at becomes
      cases becomes
      exact Span.isLocated_iff.2 ⟨start, next⟩
  | token | unrecognized =>
      rw [pieceClass] at becomes
      cases becomes
      exact Span.isLocated_iff.2 ⟨start, stop⟩

/-- A token stands for the piece from which it is made. -/
theorem tokenOf?_becomes_of_mem {position : Position} {hasContent : Bool} {piece : Piece}
    {token : Token} (member : token ∈ tokenOf? position hasContent piece) :
    piece.Becomes token := by
  have each := tokenOf?_becomes position hasContent piece
  rw [Option.mem_def.1 member] at each
  obtain ⟨_, _, becomes, _, shown⟩ := List.forall₂_cons_right_iff.1 each
  have isPiece : _ ∈ [piece] := List.mem_of_mem_filter (shown ▸ List.mem_cons_self)
  rw [List.mem_singleton.1 isPiece] at becomes
  exact becomes

/-- The tokens placed over munched pieces are proper, by induction on the pieces. -/
theorem placed_allProper {text : List Char} {pieces : List Piece}
    (munched : Piece.Munched text pieces) {position : Position} (inText : 0 ≤ position.row)
    (hasContent : Bool) : ∀ token ∈ placed position hasContent pieces, token.Proper := by
  have signed := munched.isSigned
  clear munched
  induction pieces generalizing position hasContent with
  | nil => exact fun _ member => (List.not_mem_nil member).elim
  | cons piece rest inductionHypothesis =>
      obtain ⟨isSigned, restSigned⟩ := List.forall_mem_cons.1 signed
      intro token member
      rcases List.mem_append.1 member with here | later
      · have becomes := tokenOf?_becomes_of_mem (Option.mem_toList.1 here)
        refine ⟨tokenOf?_located inText hasContent piece token (Option.mem_toList.1 here), ?_⟩
        intro entry listed sameText
        exact isSigned.kind becomes.2 listed (becomes.1.symm.trans sameText)
      · exact inductionHypothesis (Position.advanceBy_row_nonneg inText _) _ restSigned token later

end Scan

/-- A token without text has the text of no operator. -/
theorem Token.proper_of_empty {kind : TokenKind} {start stop : Position}
    (startInText : 0 ≤ start.row) (stopInText : 0 ≤ stop.row) :
    Token.Proper ⟨kind, "", start, stop⟩ := by
  have noText : ∀ entry ∈ KiwiGrammar.operators, "" ≠ entry.1 := by decide
  refine ⟨Span.isLocated_iff.2 ⟨Position.isLocated_of_row startInText,
    Position.isLocated_of_row stopInText⟩, ?_⟩
  exact fun entry listed sameText => absurd sameText (noText entry listed)

/-- Scanned tokens are proper, and an end marker is the last of them. -/
theorem scan_proper (source : String) :
    ∃ front marker, scan source = front ++ [marker] ∧ marker.kind = .endMarker ∧
      marker.Proper ∧ (∀ token ∈ front, token.Proper) ∧
      ∀ token ∈ front, token.kind ≠ .endMarker := by
  let pieces := Piece.split source.toList
  let stop := Position.first.advanceBy source.toList
  have munched : Piece.Munched source.toList pieces := Piece.split_munched source.toList
  have atStart : 0 ≤ Position.first.row := by decide
  have atStop : 0 ≤ stop.row := Position.advanceBy_row_nonneg atStart _
  have closingToken : ∀ token ∈ Scan.closing (Scan.contentAfter false pieces) stop,
      token = ⟨.newline, "", stop, stop⟩ := by
    intro token member
    unfold Scan.closing at member
    split at member
    · exact List.mem_singleton.1 member
    · exact (List.not_mem_nil member).elim
  refine ⟨_, _, Scan.scan_eq source, rfl, Token.proper_of_empty atStop atStop, ?_, ?_⟩
  · rw [List.forall_mem_append, List.forall_mem_cons]
    refine ⟨⟨by decide, Scan.placed_allProper munched atStart false⟩, fun token member => ?_⟩
    rw [closingToken token member]
    exact Token.proper_of_empty atStop atStop
  · rw [List.forall_mem_append, List.forall_mem_cons]
    refine ⟨⟨nofun, fun token member => (Scan.placed_proper munched _ _ token member).1⟩,
      fun token member => ?_⟩
    rw [closingToken token member]
    exact nofun

/-- A name with its sigil has the text of no operator. -/
theorem Token.joinName_proper {sigil name : Token} (isSigil : sigil.isSigil = true)
    (sigilProper : sigil.Proper) (nameProper : name.Proper) : (sigil.joinName name).Proper := by
  refine ⟨Span.isLocated_of_ends sigilProper.located nameProper.located, ?_⟩
  have sigilText : sigil.text = "$" := (Token.isSigil_iff.1 isSigil).2
  have notFirst : ∀ entry ∈ KiwiGrammar.operators, entry.1.toList.head? ≠ some '$' := by decide
  intro entry listed sameText
  refine absurd ?_ (notFirst entry listed)
  rw [← show sigil.text ++ name.text = entry.1 from sameText, sigilText, String.toList_append]
  rfl

/-- The tokens that reach the parser are proper, and an end marker is the last of them. -/
theorem lex_proper (joinNames : Bool) (source : String) :
    ∃ front marker, lex joinNames source = front ++ [marker] ∧ marker.kind = .endMarker ∧
      (∀ token ∈ lex joinNames source, token.Proper) ∧
      ∀ token ∈ front, token.kind ≠ .endMarker := by
  obtain ⟨front, marker, scanned, isMarker, markerProper, proper, unmarked⟩ := scan_proper source
  have lexed : lex joinNames source = condense joinNames front ++ [marker] := by
    rw [lex, scanned, condense_concat front isMarker]
  refine ⟨condense joinNames front, marker, lexed, isMarker, ?_, ?_⟩
  · rw [lexed, List.forall_mem_append]
    refine ⟨forall_mem_condense (fun _ here _ => here) ?_ proper,
      List.forall_mem_singleton.2 markerProper⟩
    exact fun _ _ sigilProper nameProper isSigil =>
      Token.joinName_proper isSigil sigilProper nameProper
  · exact forall_mem_condense (fun _ here _ => here) (fun _ _ _ _ _ => nofun) unmarked

namespace Peg.Buffer

/-- What reaches the parser is closed already. -/
theorem close_lex (joinNames : Bool) (source : String) :
    close (lex joinNames source) = lex joinNames source := by
  obtain ⟨front, marker, lexed, isMarker, _⟩ := lex_proper joinNames source
  rw [lexed, close, isClosed]
  simp [isMarker]

/-- A lexed buffer has one end marker, at its end. -/
theorem lex_endsOnce (joinNames : Bool) (source : String) : EndsOnce (lex joinNames source) := by
  obtain ⟨front, marker, lexed, _, _, unmarked⟩ := lex_proper joinNames source
  rw [lexed, EndsOnce, List.dropLast_concat]
  exact unmarked

end Peg.Buffer

end KiwiFront
