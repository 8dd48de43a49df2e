import KiwiFront.Lexer.Coverage
import KiwiFront.Proofs.Lexer.Lines

/-!
# Tokens cover their text

No token but a line break reaches over a line feed: strings, open or closed, and comments end
before it, and a continued line break is skipped. So the tokens of a text stand where their first
characters do, on one row each, and since none of them is empty they follow each other in strictly
ascending order.
-/

namespace KiwiFront

namespace LexicalRule

open LongestMatch Pattern

/-- The kinds that no rule gives to a text. -/
def unread : List TokenKind :=
  [.newline, .blankNewline, .encoding, .endMarker, .sigilName, .unfinished]

theorem all_read : ∀ rule ∈ all, ∀ kind ∈ unread, rule.1 ≠ .token kind := by decide

theorem isLineBreak_of_read {kind : TokenKind} (isRead : kind ∉ unread) :
    kind.isLineBreak = false := by
  cases kind <;> first | rfl | exact absurd (by decide) isRead

theorem all_oneLine : ∀ rule ∈ all, rule.1 ≠ .skipped -> rule.1 ≠ .lineBreak ->
    rule.2.avoids '\n' = true := by decide

/-- A text that begins with a line feed is a line break. -/
theorem not_unmatched_lineFeed (text : List Char) : ¬ Unmatched all ('\n' :: text) := by
  intro unmatched
  refine unmatched .lineBreak ['\n'] ⟨text, rfl⟩ ⟨lineBreak, by decide, ?_⟩
  exact lineBreak_matches_iff.2 (.inl rfl)

end LexicalRule

namespace Piece

open LongestMatch Pattern

/-- Only skipped text and line breaks have line feeds in them. -/
theorem Leads.oneLine {piece : Piece} {text : List Char} (leads : piece.Leads text)
    (shown : piece.pieceClass ≠ .skipped) (noBreak : piece.pieceClass ≠ .lineBreak) :
    '\n' ∉ piece.characters := by
  cases leads with
  | recognized _ longest =>
      obtain ⟨pattern, listed, described⟩ := longest.described
      exact not_mem_of_avoids (LexicalRule.all_oneLine _ listed shown noBreak) described
  | openString _ longest =>
      obtain ⟨pattern, listed, described⟩ := longest.described
      exact not_mem_of_avoids (LexicalRule.recovery_avoids_lineFeed _ listed) described
  | @alone character rest unmatched =>
      rw [List.mem_singleton]
      rintro rfl
      exact LexicalRule.not_unmatched_lineFeed rest unmatched

/-- The kind of a piece, if it has one, is that of a rule. -/
def IsRead (piece : Piece) : Prop :=
  ∀ kind, piece.pieceClass = .token kind -> kind ∉ LexicalRule.unread

theorem Leads.isRead {piece : Piece} {text : List Char} (leads : piece.Leads text) :
    piece.IsRead := by
  intro kind isToken
  cases leads with
  | recognized _ longest =>
      obtain ⟨pattern, listed, _⟩ := longest.described
      exact fun isUnread => LexicalRule.all_read _ listed kind isUnread isToken
  | openString | alone => cases isToken

/-- No piece of a text has a kind that no rule gives. -/
theorem Munched.isRead {text : List Char} {pieces : List Piece} (munched : Munched text pieces) :
    ∀ piece ∈ pieces, piece.IsRead := by
  induction munched with
  | nil => exact fun _ member => (List.not_mem_nil member).elim
  | cons _ leads _ inductionHypothesis =>
      exact List.forall_mem_cons.2 ⟨leads.isRead, inductionHypothesis⟩

theorem exists_of_becomes {pieces : List Piece} {tokens : List Token}
    (becomes : List.Forall₂ Becomes pieces tokens) :
    ∀ token ∈ tokens, ∃ piece ∈ pieces, piece.Becomes token := by
  induction becomes with
  | nil => exact fun _ member => (List.not_mem_nil member).elim
  | cons here _ inductionHypothesis =>
      refine List.forall_mem_cons.2 ⟨⟨_, List.mem_cons_self, here⟩, fun token member => ?_⟩
      obtain ⟨piece, later, becomesToken⟩ := inductionHypothesis token member
      exact ⟨piece, List.mem_cons_of_mem _ later, becomesToken⟩

theorem Becomes.kinds {piece : Piece} {token : Token} (becomes : piece.Becomes token)
    (isRead : piece.IsRead) : token.kind ≠ .sigilName ∧ token.kind ≠ .unfinished := by
  obtain ⟨-, allowed⟩ := becomes
  cases pieceClass : piece.pieceClass with
  | skipped =>
      rw [pieceClass] at allowed
      exact allowed.elim
  | lineBreak =>
      rw [pieceClass] at allowed
      rcases allowed with isKind | isKind <;> simp [isKind]
  | token kind =>
      rw [pieceClass] at allowed
      rw [show token.kind = kind from allowed]
      constructor <;>
        · rintro rfl
          exact isRead _ pieceClass (by decide)
  | unrecognized =>
      rw [pieceClass] at allowed
      rw [show token.kind = .errorToken from allowed]
      decide

end Piece

namespace Scan

variable {front text : List Char} {piece : Piece} {pieces : List Piece} {tokens : List Token}

/-- A piece of some text becomes a token that stands there. -/
theorem tokenOf?_stands (leads : piece.Leads text) (hasContent : Bool) {token : Token}
    (becomes : tokenOf? (Position.behind front) hasContent piece = some token) :
    token.StandsBehind front ∧ token.text = piece.text := by
  have width : '\n' ∉ piece.characters ->
      (Position.behind front).advanceBy piece.characters =
        ⟨(Position.behind front).row, (Position.behind front).column + piece.text.length⟩ := by
    intro oneLine
    rw [Position.advanceBy_of_not_mem _ oneLine, Piece.text, String.length_ofList]
  unfold tokenOf? at becomes
  cases pieceClass : piece.pieceClass with
  | skipped =>
      rw [pieceClass] at becomes
      cases becomes
  | lineBreak =>
      rw [pieceClass] at becomes
      cases becomes
      refine ⟨⟨rfl, fun noBreak => ?_, fun _ => rfl⟩, rfl⟩
      cases hasContent <;> cases noBreak
  | token kind =>
      rw [pieceClass] at becomes
      cases becomes
      have oneLine := leads.oneLine (by simp [pieceClass]) (by simp [pieceClass])
      have unbroken := LexicalRule.isLineBreak_of_read (leads.isRead kind pieceClass)
      refine ⟨⟨rfl, fun _ => width oneLine, fun isBreak => ?_⟩, rfl⟩
      cases unbroken.symm.trans isBreak
  | unrecognized =>
      rw [pieceClass] at becomes
      cases becomes
      have oneLine := leads.oneLine (by simp [pieceClass]) (by simp [pieceClass])
      refine ⟨⟨rfl, fun _ => width oneLine, fun isBreak => ?_⟩, rfl⟩
      cases isBreak

/-- The tokens of what is munched from a text cover it. -/
theorem placed_covers (munched : Piece.Munched text pieces) (front : List Char)
    (hasContent : Bool) : Covers front text (placed (Position.behind front) hasContent pieces) := by
  induction munched generalizing front hasContent with
  | nil => exact .nil
  | @cons piece rest pieces nonempty leads later inductionHypothesis =>
      rw [placed, Position.advanceBy_behind]
      have covers := inductionHypothesis (front ++ piece.characters)
        (contentAfterPiece hasContent piece)
      cases becomes : tokenOf? (Position.behind front) hasContent piece with
      | none =>
          have isSkipped : piece.pieceClass = .skipped := by
            unfold tokenOf? at becomes
            cases pieceClass : piece.pieceClass <;> simp_all
          exact .skip ((Piece.Munched.cons nonempty leads later).skipped piece
            List.mem_cons_self isSkipped) covers
      | some token =>
          obtain ⟨stands, sameText⟩ := tokenOf?_stands leads hasContent becomes
          have characters : token.text.toList = piece.characters := by
            rw [sameText, Piece.text, String.toList_ofList]
          have hasText : token.text ≠ "" := fun isEmpty => nonempty (by
            rw [← characters, isEmpty]
            rfl)
          rw [← characters] at covers ⊢
          exact .token hasText stands covers

end Scan

namespace Token.StandsBehind

variable {token : Token} {front : List Char}

/-- A token with a text of its own stops behind its start, but not behind its text. -/
theorem within (stands : token.StandsBehind front) (nonempty : token.text ≠ "") :
    token.start < token.stop ∧ token.stop ≤ Position.behind (front ++ token.text.toList) := by
  have hasLength : 0 < token.text.length := by
    rw [← String.length_toList]
    exact List.length_pos_iff.2 fun isNil => nonempty (String.toList_eq_nil_iff.1 isNil)
  rw [← Position.advanceBy_behind, ← stands.start]
  cases isBreak : token.kind.isLineBreak with
  | false =>
      rw [stands.stop isBreak]
      refine ⟨.inr ⟨rfl, ?_⟩, ?_⟩
      · simp only
        omega
      · rw [← String.length_toList]
        exact Position.right_le_advanceBy _ _
  | true =>
      rw [stands.lineBreak isBreak]
      refine ⟨.inr ⟨rfl, Int.lt_succ _⟩, ?_⟩
      refine Position.le_trans ?_ (Position.right_le_advanceBy _ _)
      rw [String.length_toList]
      refine .inr ⟨rfl, ?_⟩
      simp only
      omega

end Token.StandsBehind

namespace Scan.Covers

variable {front text : List Char} {tokens : List Token}

/-- Tokens stand within the text that they cover and are not empty. -/
theorem within (covers : Covers front text tokens) : ∀ token ∈ tokens,
    Position.behind front ≤ token.start ∧ token.start < token.stop ∧
      token.stop ≤ Position.behind (front ++ text) := by
  induction covers with
  | nil => exact fun _ member => (List.not_mem_nil member).elim
  | @skip front skipped rest tokens _ _ inductionHypothesis =>
      intro token member
      obtain ⟨starts, proper, stops⟩ := inductionHypothesis token member
      rw [List.append_assoc] at stops
      refine ⟨Position.le_trans ?_ starts, proper, stops⟩
      rw [← Position.advanceBy_behind]
      exact Position.le_advanceBy _ _
  | @token front token rest tokens nonempty stands _ inductionHypothesis =>
      obtain ⟨proper, stops⟩ := stands.within nonempty
      rw [List.forall_mem_cons]
      refine ⟨⟨?_, proper, Position.le_trans stops ?_⟩, fun later member => ?_⟩
      · rw [stands.start]
        exact Position.le_refl _
      · rw [← List.append_assoc, ← Position.advanceBy_behind (front ++ token.text.toList)]
        exact Position.le_advanceBy _ _
      · obtain ⟨starts, laterProper, laterStops⟩ := inductionHypothesis later member
        rw [List.append_assoc] at laterStops
        refine ⟨Position.le_trans ?_ starts, laterProper, laterStops⟩
        rw [← Position.advanceBy_behind]
        exact Position.le_advanceBy _ _

/-- A token starts where the offset of its text is looked up, as far as rows and columns are
counted. -/
theorem positionIn?_start (covers : Covers front text tokens) {source : String}
    (split : source.toList = front ++ text) :
    ∀ token ∈ tokens, ∃ before behind, source.toList = before ++ token.text.toList ++ behind ∧
      ∀ counting : Counting, counting.Reaches token.start ->
        (LineTable.ofSource source).positionIn? counting (String.utf8Len before) =
          .ok token.start := by
  induction covers with
  | nil => exact fun _ member => (List.not_mem_nil member).elim
  | skip _ _ inductionHypothesis => exact inductionHypothesis (by rw [split, List.append_assoc])
  | @token front token rest tokens _ stands _ inductionHypothesis =>
      rw [← List.append_assoc] at split
      refine List.forall_mem_cons.2 ⟨⟨front, rest, split, fun counting reaches => ?_⟩,
        inductionHypothesis split⟩
      rw [stands.start] at reaches ⊢
      rw [List.append_assoc] at split
      exact LineTable.positionIn?_of_reaches split (LineTable.utf8Len_front split) reaches

/-- Each token stops before the next one starts. -/
theorem ordered (covers : Covers front text tokens) :
    tokens.Pairwise fun token next => token.stop ≤ next.start := by
  induction covers with
  | nil => exact .nil
  | skip _ _ inductionHypothesis => exact inductionHypothesis
  | token nonempty stands later inductionHypothesis =>
      refine List.pairwise_cons.2 ⟨fun next member => ?_, inductionHypothesis⟩
      exact Position.le_trans (stands.within nonempty).2 (later.within next member).1

end Scan.Covers

/-- No token is scanned of the kind that joining makes, or of the one that nothing makes. -/
theorem scan_kinds (source : String) :
    ∀ token ∈ scan source, token.kind ≠ .sigilName ∧ token.kind ≠ .unfinished := by
  obtain ⟨pieces, tokens, closing, stop, -, munched, -, scanned, closes, becomes⟩ :=
    scan_munches source
  have scannedKinds : ∀ token ∈ tokens, token.kind ≠ .sigilName ∧ token.kind ≠ .unfinished := by
    intro token member
    obtain ⟨piece, shown, here⟩ := Piece.exists_of_becomes becomes token member
    exact here.kinds (munched.isRead piece (List.mem_of_mem_filter shown))
  have closingKinds : ∀ token ∈ closing ++ [⟨.endMarker, "", stop, stop⟩],
      token.kind ≠ .sigilName ∧ token.kind ≠ .unfinished := by
    rcases closes with rfl | rfl <;> simp
  rw [scanned, List.append_assoc, List.cons_append, List.forall_mem_cons, List.forall_mem_append]
  exact ⟨by decide, scannedKinds, closingKinds⟩

/-- The tokens of a text, the encoding and what closes them apart, cover it, and what closes them
stands behind it. -/
theorem scan_stands (source : String) :
    let stop := Position.behind source.toList
    ∃ tokens closing,
      scan source = Scan.encodingToken :: tokens ++ closing ++ [⟨.endMarker, "", stop, stop⟩] ∧
      (closing = [] ∨ closing = [⟨.newline, "", stop, stop⟩]) ∧
      Scan.Covers [] source.toList tokens := by
  intro stop
  have scanned := Scan.scan_eq source
  simp only [Position.advanceBy_first] at scanned
  refine ⟨_, _, scanned, ?_, Scan.placed_covers (Piece.split_munched source.toList) [] false⟩
  unfold Scan.closing
  split
  · exact .inr rfl
  · exact .inl rfl

/-- No token stops before its start or behind the start of a later one, and those that have a text
and are not the encoding start one behind the other. -/
theorem scan_ordered (source : String) :
    (∀ token ∈ scan source, token.start ≤ token.stop) ∧
    ((scan source).Pairwise fun token next => token.stop ≤ next.start) ∧
    ((scan source).tail.filter (·.text ≠ "")).Pairwise fun token next =>
      token.start < next.start := by
  obtain ⟨tokens, closing, scanned, closes, covers⟩ := scan_stands source
  let stop := Position.behind source.toList
  let ending : List Token := closing ++ [⟨.endMarker, "", stop, stop⟩]
  have atEnd : ∀ token ∈ ending, token.text = "" ∧ token.start = stop ∧ token.stop = stop := by
    rcases closes with rfl | rfl <;> simp [ending, stop]
  have beforeRows : ∀ token ∈ tokens ++ ending, Scan.encodingToken.stop ≤ token.start := by
    rw [List.forall_mem_append]
    refine ⟨fun token member => ?_, fun token member => ?_⟩
    · exact Position.le_trans (by decide) (covers.within token member).1
    · rw [(atEnd token member).2.1]
      exact Position.le_trans (by decide) (Position.advanceBy_first _ ▸ Position.le_advanceBy _ _)
  have ordered : (tokens ++ ending).Pairwise fun token next => token.stop ≤ next.start := by
    refine List.pairwise_append.2 ⟨covers.ordered, ?_, fun token member next isLater => ?_⟩
    · refine List.pairwise_of_forall_mem_list fun token member next isLater => ?_
      rw [(atEnd token member).2.2, (atEnd next isLater).2.1]
      exact Position.le_refl _
    · rw [(atEnd next isLater).2.1]
      exact (covers.within token member).2.2
  rw [scanned, List.append_assoc, List.cons_append]
  refine ⟨List.forall_mem_cons.2 ⟨Position.le_refl _, ?_⟩,
    List.pairwise_cons.2 ⟨beforeRows, ordered⟩, ?_⟩
  · rw [List.forall_mem_append]
    refine ⟨fun token member => Position.le_of_lt (covers.within token member).2.1,
      fun token member => ?_⟩
    rw [(atEnd token member).2.1, (atEnd token member).2.2]
    exact Position.le_refl _
  · have noText : ending.filter (·.text ≠ "") = [] :=
      List.filter_eq_nil_iff.2 fun token member => by simp [(atEnd token member).1]
    rw [List.tail_cons, List.filter_append, noText, List.append_nil]
    refine List.Pairwise.filter _ (covers.ordered.imp_of_mem fun member _ before => ?_)
    exact Position.lt_of_lt_of_le (covers.within _ member).2.1 before

/-- Tokens stand where their texts do. Those of a text, the encoding and what closes them apart,
cover it: each starts at the place of its first character and, unless it is a line break, stops as
many columns later on the same row as it has characters. An empty line break and the end marker
stand at the place behind the text. So tokens do not overlap, and none but empty ones start at the
same place. The place of a token is what the line table tells for the offset of its text, and if
32-bit numbers reach all tokens, positions of 32 bits are the same ones. -/
theorem scan_covers (source : String) :
    (∃ (tokens closing : List Token) (stop : Position), stop = Position.behind source.toList ∧
      scan source = Scan.encodingToken :: tokens ++ closing ++ [⟨.endMarker, "", stop, stop⟩] ∧
      (closing = [] ∨ closing = [⟨.newline, "", stop, stop⟩]) ∧
      Scan.Covers [] source.toList tokens ∧
      ∀ token ∈ tokens, ∃ before behind,
        source.toList = before ++ token.text.toList ++ behind ∧
        ∀ counting : Counting, counting.Reaches token.start ->
          (LineTable.ofSource source).positionIn? counting (String.utf8Len before) =
            .ok token.start) ∧
    (∀ token ∈ scan source, token.start ≤ token.stop) ∧
    ((scan source).Pairwise fun token next => token.stop ≤ next.start) ∧
    (((scan source).tail.filter (·.text ≠ "")).Pairwise fun token next =>
      token.start < next.start) ∧
    (Counting.int32.ReachesTokens (scan source) -> scan? source = .ok (scan source)) := by
  obtain ⟨tokens, closing, scanned, closes, covers⟩ := scan_stands source
  obtain ⟨proper, apart, ascending⟩ := scan_ordered source
  exact ⟨⟨tokens, closing, _, rfl, scanned, closes, covers, covers.positionIn?_start rfl⟩, proper,
    apart, ascending, Scan.scan?_eq_ok⟩

/-- On the second line, a letter of two bytes is one column wide. -/
theorem scan_covers_second_line :
    Counting.int32.ReachesTokens (scan "#\n x\u03b1\n") ∧
      scan? "#\n x\u03b1\n" = .ok [Scan.encodingToken, ⟨.comment, "#", ⟨1, 1⟩, ⟨1, 2⟩⟩,
        ⟨.blankNewline, "\n", ⟨1, 2⟩, ⟨1, 3⟩⟩, .nameAt 2 2 "x",
        .placed .errorToken "\u03b1" 2 3, ⟨.newline, "\n", ⟨2, 4⟩, ⟨2, 5⟩⟩,
        ⟨.endMarker, "", ⟨3, 1⟩, ⟨3, 1⟩⟩] := by
  have reaches : Counting.int32.ReachesTokens (scan "#\n x\u03b1\n") :=
    Scan.scan_reaches (by decide)
  refine ⟨reaches, ((scan_covers _).2.2.2.2 reaches).trans ?_⟩
  cbv

end KiwiFront
