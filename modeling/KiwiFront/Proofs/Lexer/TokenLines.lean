import KiwiFront.Lexer.TokenLines
import KiwiFront.Proofs.Lexer.Buffered
import KiwiFront.Proofs.Lexer.Coverage

/-!
# How lines end

Scanning keeps track of whether there is content in the current line, and so each line gets the line
break that it needs. Unrecognized text is content, but is dropped later: a line with no other
content is all that puts a line break at the start of a line before the parser.
-/

namespace KiwiFront

namespace TokenKind

variable {kind : TokenKind}

/-- The two kinds of line breaks. -/
theorem isLineBreak_iff : kind.isLineBreak = true ↔ kind = .newline ∨ kind = .blankNewline := by
  cases kind <;> simp [isLineBreak]

/-- Kinds that break no line are no line ends either. -/
theorem ne_newline_of_unbroken (unbroken : kind.isLineBreak = false) : kind ≠ .newline := by
  rintro rfl
  cases unbroken

end TokenKind

namespace Token

/-- What is dropped from a line is what is no content or not recognized. -/
theorem isDropped_iff {token : Token} (unbroken : token.kind.isLineBreak = false)
    (proper : token.kind ≠ .endMarker ∧ token.kind ≠ .unfinished) :
    token.isDropped = true ↔
      (token.isContent = true -> token.kind = .errorToken ∧ token.text ≠ "$") := by
  obtain ⟨kind, text, start, stop⟩ := token
  cases kind <;>
    simp_all [isDropped, isSigil, isContent, TokenKind.isTrivia, TokenKind.isLineBreak]

end Token

/-- A member of two lists on end stands in one of them. -/
theorem exists_part_of_append {Part : Type} {first second front back : List Part} {part : Part}
    (split : first ++ second = front ++ part :: back) :
    (∃ between, front = first ++ between ∧ second = between ++ part :: back) ∨
      ∃ after, first = front ++ part :: after := by
  rcases List.append_eq_append_iff.1 split with behind | ⟨between, within, behind⟩
  · exact .inl behind
  · cases between with
    | nil => exact .inl ⟨[], by simpa using within.symm, behind.symm⟩
    | cons head after =>
        obtain ⟨rfl, -⟩ := List.cons.inj behind
        exact .inr ⟨after, within⟩

/-- A member of a list that comes about in parts stands in one of them. -/
theorem exists_part_of_flatMap {Whole Part : Type} {wholes : List Whole}
    {parts : Whole -> List Part} {front back : List Part} {part : Part}
    (split : wholes.flatMap parts = front ++ part :: back) :
    ∃ (earlier : List Whole) (whole : Whole) (later : List Whole) (before after : List Part),
      wholes = earlier ++ whole :: later ∧ parts whole = before ++ part :: after ∧
        front = earlier.flatMap parts ++ before := by
  induction wholes generalizing front with
  | nil => simp at split
  | cons whole rest inductionHypothesis =>
      rw [List.flatMap_cons] at split
      rcases exists_part_of_append split with ⟨between, rfl, behind⟩ | ⟨after, here⟩
      · obtain ⟨earlier, found, later, before, after, rfl, isPart, rfl⟩ :=
          inductionHypothesis behind
        exact ⟨whole :: earlier, found, later, before, after, rfl, isPart, by simp⟩
      · exact ⟨[], whole, rest, front, after, rfl, here, rfl⟩

namespace TokenLine

variable {begun tokens : List Token} {token : Token} {line : TokenLine}

/-- A line break closes the line that has begun. -/
theorem splitBehind_lineBreak (isBreak : token.kind.isLineBreak = true) :
    splitBehind begun (token :: tokens) = ⟨begun, some token⟩ :: splitBehind [] tokens := by
  rw [splitBehind, if_pos isBreak]

/-- Any other token joins the line that has begun. -/
theorem splitBehind_unbroken (unbroken : token.kind.isLineBreak = false) :
    splitBehind begun (token :: tokens) = splitBehind (begun ++ [token]) tokens := by
  rw [splitBehind, if_neg (by simp [unbroken])]

/-- Nothing is lost or added between lines. -/
theorem flatMap_splitBehind : (splitBehind begun tokens).flatMap all = begun ++ tokens := by
  fun_induction splitBehind begun tokens with
  | case1 begun => simp [all]
  | case2 begun token rest isBreak inductionHypothesis =>
      rw [List.flatMap_cons, inductionHypothesis]
      simp [all]
  | case3 begun token rest unbroken inductionHypothesis =>
      rw [inductionHypothesis, List.append_assoc, List.singleton_append]

/-- Splitting cuts at every line break, whatever unbroken tokens have begun the first line. -/
theorem splitBehind_cut (begunUnbroken : ∀ token ∈ begun, token.kind.isLineBreak = false) :
    ∀ line ∈ splitBehind begun tokens, line.IsCut := by
  fun_induction splitBehind begun tokens with
  | case1 begun =>
      refine List.forall_mem_singleton.2 ⟨begunUnbroken, fun token isClosing => ?_⟩
      cases isClosing
  | case2 begun token rest isBreak inductionHypothesis =>
      refine List.forall_mem_cons.2
        ⟨⟨begunUnbroken, ?_⟩, inductionHypothesis (List.forall_mem_nil _)⟩
      rintro _ ⟨⟩
      exact isBreak
  | case3 begun token rest unbroken inductionHypothesis =>
      refine inductionHypothesis (List.forall_mem_append.2 ⟨begunUnbroken, ?_⟩)
      exact List.forall_mem_singleton.2 (Bool.eq_false_of_not_eq_true unbroken)

/-- Condensing goes line by line, since no line break is a sigil. -/
theorem condense_splitBehind (joinNames : Bool) (begun tokens : List Token) :
    condense joinNames (begun ++ tokens) =
      (splitBehind begun tokens).flatMap fun line => condense joinNames line.all := by
  fun_induction splitBehind begun tokens with
  | case1 begun => simp [all]
  | case2 begun token rest isBreak inductionHypothesis =>
      have noSigil : token.isSigil = false := by
        rcases TokenKind.isLineBreak_iff.1 isBreak with isKind | isKind <;>
          simp [Token.isSigil, isKind]
      rw [List.flatMap_cons, ← inductionHypothesis, ← List.singleton_append, ← List.append_assoc,
        condense_append]
      · rfl
      · intro last isLast _ _ isSigil
        rw [List.getLast?_concat] at isLast
        cases isLast
        cases noSigil.symm.trans isSigil
  | case3 begun token rest unbroken inductionHypothesis =>
      rw [← inductionHypothesis, List.append_assoc, List.singleton_append]

/-- A line without content or with unrecognized content alone leaves nothing but its line break. -/
theorem condense_tokens_eq_nil_iff (joinNames : Bool) (cut : line.IsCut)
    (proper : ∀ token ∈ line.tokens, token.kind ≠ .endMarker ∧ token.kind ≠ .unfinished) :
    condense joinNames line.tokens = [] ↔ line.IsUnrecognized := by
  rw [condense_eq_nil_iff, IsUnrecognized]
  exact forall₂_congr fun token member =>
    Token.isDropped_iff (cut.unbroken token member) (proper token member)

/-- Of the line breaks, only a `newline` is left. -/
theorem condense_all (joinNames : Bool) (cut : line.IsCut) :
    condense joinNames line.all =
      condense joinNames line.tokens ++ (line.closing.filter (·.kind = .newline)).toList := by
  have closing : condense joinNames line.closing.toList =
      (line.closing.filter (·.kind = .newline)).toList := by
    cases isClosing : line.closing with
    | none => rfl
    | some token =>
        rcases TokenKind.isLineBreak_iff.1 (cut.broken token isClosing) with isKind | isKind <;>
          simp [condense, Option.filter, Token.isDropped, Token.isSigil, TokenKind.isTrivia, isKind]
  rw [← closing]
  refine condense_append fun last _ next isNext _ => ?_
  rw [Option.head?_toList] at isNext
  rcases TokenKind.isLineBreak_iff.1 (cut.broken next isNext) with isKind | isKind <;>
    simp [Token.touchesName, isKind]

/-- No statement ends within a line, and condensing adds none. -/
theorem condense_tokens_ne_newline (joinNames : Bool) (cut : line.IsCut) :
    ∀ token ∈ condense joinNames line.tokens, token.kind ≠ .newline := by
  refine forall_mem_condense (fun token unbroken _ => ?_) (fun _ _ _ _ _ => ?_) cut.unbroken
  · exact TokenKind.ne_newline_of_unbroken unbroken
  · simp [Token.joinName]

/-- A `newline` that is left of a line is what closes it. -/
theorem closing_of_condense {joinNames : Bool} {before after : List Token} {newline : Token}
    (cut : line.IsCut) (isNewline : newline.kind = .newline)
    (condensed : condense joinNames line.all = before ++ newline :: after) :
    before = condense joinNames line.tokens ∧ line.closing = some newline := by
  have fresh : newline ∉ condense joinNames line.tokens := fun member =>
    condense_tokens_ne_newline joinNames cut newline member isNewline
  rw [condense_all joinNames cut] at condensed
  rcases exists_part_of_append condensed with ⟨between, isBefore, isClosing⟩ | ⟨_, within⟩
  · cases closes : line.closing.filter (·.kind = .newline) with
    | none => simp [closes] at isClosing
    | some token =>
        rw [closes, Option.toList_some] at isClosing
        cases between with
        | nil =>
            obtain ⟨rfl, -⟩ := List.cons.inj isClosing
            exact ⟨by simpa using isBefore, (Option.filter_eq_some_iff.1 closes).1⟩
        | cons => simp at isClosing
  · exact absurd (within ▸ by simp) fresh

/-- What is left of a line lets the next one start anew. -/
theorem condense_atLineStart (joinNames : Bool) (cut : line.IsCut) (closed : line.IsClosed)
    (proper : ∀ token ∈ line.tokens, token.kind ≠ .endMarker ∧ token.kind ≠ .unfinished) :
    AtLineStart (condense joinNames line.all) := by
  rw [condense_all joinNames cut]
  cases content : line.hasContent with
  | true =>
      obtain ⟨newline, isClosing, isNewline⟩ := closed.content content
      rw [isClosing, Option.filter_some_pos (by simpa using isNewline), Option.toList_some]
      intro last isLast
      rw [List.getLast?_concat] at isLast
      cases isLast
      exact isNewline
  | false =>
      have nothing : line.IsUnrecognized := fun token member isContent =>
        absurd isContent (List.any_eq_false.1 content token member)
      rw [(condense_tokens_eq_nil_iff joinNames cut proper).2 nothing]
      have noNewline : line.closing.filter (·.kind = .newline) = none := by
        refine Option.filter_eq_none_iff.2 fun token isClosing => ?_
        simp [closed.blank content token isClosing]
      rw [noNewline]
      exact nofun

/-- A line break of the right kind closes its line. -/
theorem isClosed_of_kind
    (fits : token.kind = if begun.any Token.isContent then .newline else .blankNewline) :
    IsClosed ⟨begun, some token⟩ where
  content hasContent := ⟨token, rfl, fits.trans (if_pos hasContent)⟩
  blank noContent := by
    rintro _ ⟨⟩
    exact fits.trans (if_neg (Bool.eq_false_iff.1 noContent))

/-- The last line may stay open if it holds no content. -/
theorem isClosed_of_open (noContent : begun.any Token.isContent = false) :
    IsClosed ⟨begun, none⟩ where
  content hasContent := by cases noContent.symm.trans hasContent
  blank _ token isClosing := by cases isClosing

/-- A line has as many `newline`s as it needs. -/
theorem countP_newline (cut : line.IsCut) (closed : line.IsClosed) :
    line.all.countP (·.kind = .newline) = if line.hasContent then 1 else 0 := by
  have noneWithin : line.tokens.countP (·.kind = .newline) = 0 := by
    refine List.countP_eq_zero.2 fun token member isNewline => ?_
    exact TokenKind.ne_newline_of_unbroken (cut.unbroken token member) (of_decide_eq_true isNewline)
  rw [all, List.countP_append, noneWithin, Nat.zero_add]
  cases content : line.hasContent with
  | true =>
      obtain ⟨newline, isClosing, isNewline⟩ := closed.content content
      simp [isClosing, isNewline]
  | false =>
      cases isClosing : line.closing with
      | none => rfl
      | some token => simp [closed.blank content token isClosing]

/-- Statement ends count the lines with content, by induction on the lines. -/
theorem countP_newline_flatMap {lines : List TokenLine} (cut : ∀ line ∈ lines, line.IsCut)
    (closed : ∀ line ∈ lines, line.IsClosed) :
    (lines.flatMap all).countP (·.kind = .newline) = lines.countP hasContent := by
  induction lines with
  | nil => rfl
  | cons line rest inductionHypothesis =>
      obtain ⟨lineCut, restCut⟩ := List.forall_mem_cons.1 cut
      obtain ⟨lineClosed, restClosed⟩ := List.forall_mem_cons.1 closed
      rw [List.flatMap_cons, List.countP_append, countP_newline lineCut lineClosed,
        inductionHypothesis restCut restClosed, List.countP_cons, Nat.add_comm]

end TokenLine

namespace Scan

open TokenLine

/-- What the token of a piece, if it becomes one, is to the line that it stands in. -/
theorem tokenOf?_cases (position : Position) (hasContent : Bool) {piece : Piece}
    (isRead : piece.IsRead) :
    (tokenOf? position hasContent piece = none ∧
      contentAfterPiece hasContent piece = hasContent) ∨
    (tokenOf? position hasContent piece =
        some (lineBreakToken hasContent piece.text position) ∧
      contentAfterPiece hasContent piece = false) ∨
    ∃ token, tokenOf? position hasContent piece = some token ∧
      token.kind.isLineBreak = false ∧
      contentAfterPiece hasContent piece = (hasContent || token.isContent) := by
  unfold tokenOf? contentAfterPiece
  cases pieceClass : piece.pieceClass with
  | skipped => exact .inl ⟨rfl, rfl⟩
  | lineBreak => exact .inr (.inl ⟨rfl, rfl⟩)
  | token kind =>
      have kindRead := isRead kind pieceClass
      refine .inr (.inr ⟨_, rfl, LexicalRule.isLineBreak_of_read kindRead, ?_⟩)
      cases kind <;> first | rfl | exact absurd (by decide) kindRead
  | unrecognized => exact .inr (.inr ⟨_, rfl, rfl, (Bool.or_true _).symm⟩)

/-- Scanning closes each line as its tokens require, and what it keeps track of is whether the last
line has content so far. -/
theorem splitBehind_placed {pieces : List Piece} (areRead : ∀ piece ∈ pieces, piece.IsRead)
    (position : Position) (begun : List Token) :
    ∃ earlier last,
      (∀ behind, splitBehind begun
          (placed position (begun.any Token.isContent) pieces ++ behind) =
        earlier ++ splitBehind last behind) ∧
      (∀ line ∈ earlier, line.IsClosed) ∧
      last.any Token.isContent = contentAfter (begun.any Token.isContent) pieces := by
  induction pieces generalizing position begun with
  | nil => exact ⟨[], begun, fun _ => rfl, nofun, rfl⟩
  | cons piece rest inductionHypothesis =>
      obtain ⟨isRead, restRead⟩ := List.forall_mem_cons.1 areRead
      have goesOn := inductionHypothesis restRead (position.advanceBy piece.characters)
      rw [placed, contentAfter, List.foldl_cons]
      rcases tokenOf?_cases position (begun.any Token.isContent) isRead with
        ⟨becomes, content⟩ | ⟨becomes, content⟩ | ⟨token, becomes, unbroken, content⟩
      · rw [becomes, content]
        exact goesOn begun
      · obtain ⟨earlier, last, splits, closed, hasContent⟩ := goesOn []
        let token := lineBreakToken (begun.any Token.isContent) piece.text position
        have closedHere : IsClosed ⟨begun, some token⟩ := isClosed_of_kind rfl
        rw [becomes, content]
        refine ⟨_, last, fun behind => ?_, List.forall_mem_cons.2 ⟨closedHere, closed⟩, hasContent⟩
        rw [Option.toList_some, List.append_assoc, List.singleton_append, splitBehind_lineBreak,
          List.cons_append]
        · exact congrArg (List.cons _) (splits behind)
        · unfold lineBreakToken
          split <;> rfl
      · obtain ⟨earlier, last, splits, closed, hasContent⟩ := goesOn (begun ++ [token])
        rw [List.any_append, List.any_cons, List.any_nil, Bool.or_false, ← content]
          at splits hasContent
        rw [becomes]
        refine ⟨earlier, last, fun behind => ?_, closed, hasContent⟩
        rw [Option.toList_some, List.append_assoc, List.singleton_append,
          splitBehind_unbroken unbroken]
        exact splits behind

end Scan

namespace AtLineStart

/-- The last line that leaves anything decides where its tokens end. -/
theorem flatMap {lines : List TokenLine} {left : TokenLine -> List Token}
    (each : ∀ line ∈ lines, AtLineStart (left line)) : AtLineStart (lines.flatMap left) := by
  intro last isLast
  rw [List.getLast?_flatMap] at isLast
  obtain ⟨line, member, isLastThere⟩ := List.exists_of_findSome?_eq_some isLast
  exact each line (List.mem_reverse.1 member) last isLastThere

/-- Behind a statement end, tokens that end none keep to a line start only if there are none. -/
theorem append_iff {before tokens : List Token} (ended : AtLineStart before)
    (unbroken : ∀ token ∈ tokens, token.kind ≠ .newline) :
    AtLineStart (before ++ tokens) ↔ tokens = [] := by
  constructor
  · intro starts
    rcases List.eq_nil_or_concat tokens with isNil | ⟨front, last, rfl⟩
    · exact isNil
    · exact absurd (starts last (by simp)) (unbroken last (by simp))
  · rintro rfl
    rwa [List.append_nil]

end AtLineStart

/-- The text of a source ends in a line that is closed only if it has content, and then by an empty
`newline` behind the text. All lines before it are closed by line breaks of the text. -/
theorem scan_lines (source : String) :
    let stop := Position.behind source.toList
    let ending : Token := ⟨.endMarker, "", stop, stop⟩
    ∃ (front : List Token) (earlier : List TokenLine) (last : TokenLine),
      scan source =
        front ++ (if last.hasContent then [⟨.newline, "", stop, stop⟩] else []) ++ [ending] ∧
      (∀ token ∈ front, token.text ≠ "") ∧
      TokenLine.split front = earlier ++ [last] ∧ last.closing = none ∧
      ∀ line ∈ TokenLine.split (scan source), line.IsClosed := by
  intro stop ending
  let pieces := Piece.split source.toList
  have munched : Piece.Munched source.toList pieces := Piece.split_munched source.toList
  obtain ⟨earlier, last, splits, closed, hasContent⟩ :=
    Scan.splitBehind_placed munched.isRead .first [Scan.encodingToken]
  let front := Scan.encodingToken :: Scan.placed .first false pieces
  let closing := Scan.closing (last.any Token.isContent) stop
  -- What closes the text belongs to its last line.
  have scanned : scan source = front ++ closing ++ [ending] := by
    have isScan := Scan.scan_eq source
    simp only [Position.advanceBy_first] at isScan
    rw [isScan]
    simp only [closing, hasContent]
    rfl
  have splitFront : ∀ behind, TokenLine.split (front ++ behind) =
      earlier ++ TokenLine.splitBehind last behind := splits
  refine ⟨front, earlier, ⟨last, none⟩, scanned, ?_, ?_, rfl, ?_⟩
  · refine List.forall_mem_cons.2 ⟨by decide, fun token member => ?_⟩
    exact (Scan.placed_proper munched _ _ token member).2
  · rw [← List.append_nil front]
    exact splitFront []
  · rw [scanned, List.append_assoc, splitFront, List.forall_mem_append]
    refine ⟨closed, ?_⟩
    cases content : last.any Token.isContent with
    | true =>
        simp only [closing, content, Scan.closing, if_true]
        refine List.forall_mem_cons.2 ⟨TokenLine.isClosed_of_kind ?_, ?_⟩
        · rw [content]
          rfl
        · exact List.forall_mem_singleton.2 (TokenLine.isClosed_of_open rfl)
    | false =>
        simp only [closing, content, Scan.closing]
        refine List.forall_mem_singleton.2 (TokenLine.isClosed_of_open ?_)
        rw [List.any_append, content]
        rfl

/-- What is a `newline` in the end closes a line, and stands at the start of one if there is nothing
else left of that line. -/
theorem lex_newline {joinNames : Bool} {source : String} {front back : List Token}
    {newline : Token} (lexed : lex joinNames source = front ++ newline :: back)
    (isNewline : newline.kind = .newline) :
    ∃ (earlier : List TokenLine) (line : TokenLine) (later : List TokenLine),
      TokenLine.split (scan source) = earlier ++ line :: later ∧ line.closing = some newline ∧
      front = (earlier.flatMap fun line => condense joinNames line.all) ++
        condense joinNames line.tokens ∧
      (AtLineStart front ↔ line.IsUnrecognized) := by
  have cut : ∀ line ∈ TokenLine.split (scan source), line.IsCut :=
    TokenLine.splitBehind_cut (List.forall_mem_nil _)
  obtain ⟨_, _, _, _, _, _, _, closed⟩ := scan_lines source
  have byLines : lex joinNames source =
      (TokenLine.split (scan source)).flatMap fun line => condense joinNames line.all :=
    TokenLine.condense_splitBehind joinNames [] (scan source)
  obtain ⟨earlier, line, later, before, after, lines, here, rfl⟩ :=
    exists_part_of_flatMap (byLines.symm.trans lexed)
  rw [lines, List.forall_mem_append, List.forall_mem_cons] at cut closed
  obtain ⟨earlierCut, lineCut, -⟩ := cut
  obtain ⟨earlierClosed, lineClosed, -⟩ := closed
  obtain ⟨rfl, isClosing⟩ := TokenLine.closing_of_condense lineCut isNewline here
  refine ⟨earlier, line, later, lines, isClosing, rfl, ?_⟩
  -- Neither this line nor one before it has the end marker, which comes last.
  have whole : earlier.flatMap TokenLine.all ++ line.tokens ++
      newline :: later.flatMap TokenLine.all = scan source := by
    have nothingLost : (TokenLine.split (scan source)).flatMap TokenLine.all = scan source :=
      TokenLine.flatMap_splitBehind
    rw [lines] at nothingLost
    simpa [TokenLine.all, isClosing] using nothingLost
  have proper : ∀ token ∈ earlier.flatMap TokenLine.all ++ line.tokens,
      token.kind ≠ .endMarker ∧ token.kind ≠ .unfinished := by
    intro token member
    obtain ⟨scanFront, marker, scanned, -, -, -, unmarked⟩ := scan_proper source
    have inFront : token ∈ scanFront := by
      have isFront : (scan source).dropLast = scanFront := by rw [scanned, List.dropLast_concat]
      rw [← isFront, ← whole, List.dropLast_append_cons]
      exact List.mem_append_left _ member
    refine ⟨unmarked token inFront, (scan_kinds source token ?_).2⟩
    rw [scanned]
    exact List.mem_append_left _ inFront
  rw [List.forall_mem_append] at proper
  rw [AtLineStart.append_iff, TokenLine.condense_tokens_eq_nil_iff joinNames lineCut proper.2]
  · refine AtLineStart.flatMap fun line member => ?_
    refine TokenLine.condense_atLineStart joinNames (earlierCut line member)
      (earlierClosed line member) fun token isToken => proper.1 token ?_
    exact List.mem_flatMap.2 ⟨line, member, List.mem_append_left _ isToken⟩
  · exact TokenLine.condense_tokens_ne_newline joinNames lineCut

/-- Line breaks cut the tokens of a text into lines. A line with content is closed by one `newline`,
a line without by none, so that there are as many `newline`s as lines with content. The last line of
the text, if it has content, is closed by an empty `newline` behind the text. Before the parser, a
`newline` stands first or behind another exactly if the content of its line is unrecognized. -/
theorem scan_closes_lines (source : String) :
    ((TokenLine.split (scan source)).flatMap TokenLine.all = scan source ∧
      ∀ line ∈ TokenLine.split (scan source), line.IsCut ∧ line.IsClosed) ∧
    (∃ (front : List Token) (earlier : List TokenLine) (last : TokenLine) (stop : Position),
      stop = Position.behind source.toList ∧
      scan source =
        front ++ (if last.hasContent then [⟨.newline, "", stop, stop⟩] else []) ++
          [⟨.endMarker, "", stop, stop⟩] ∧
      (∀ token ∈ front, token.text ≠ "") ∧
      TokenLine.split front = earlier ++ [last] ∧ last.closing = none) ∧
    (scan source).countP (·.kind = .newline) =
      (TokenLine.split (scan source)).countP TokenLine.hasContent ∧
    ∀ (joinNames : Bool) (front : List Token) (newline : Token) (back : List Token),
      lex joinNames source = front ++ newline :: back -> newline.kind = .newline ->
      ∃ (earlier : List TokenLine) (line : TokenLine) (later : List TokenLine),
        TokenLine.split (scan source) = earlier ++ line :: later ∧ line.closing = some newline ∧
        front = (earlier.flatMap fun line => condense joinNames line.all) ++
          condense joinNames line.tokens ∧
        (AtLineStart front ↔ line.IsUnrecognized) := by
  obtain ⟨front, earlier, last, scanned, texts, split, isOpen, closed⟩ := scan_lines source
  have cut : ∀ line ∈ TokenLine.split (scan source), line.IsCut :=
    TokenLine.splitBehind_cut (List.forall_mem_nil _)
  have nothingLost : (TokenLine.split (scan source)).flatMap TokenLine.all = scan source :=
    TokenLine.flatMap_splitBehind
  have counted := TokenLine.countP_newline_flatMap cut closed
  rw [nothingLost] at counted
  exact ⟨⟨nothingLost, fun line member => ⟨cut line member, closed line member⟩⟩,
    ⟨front, earlier, last, _, rfl, scanned, texts, split, isOpen⟩, counted,
    fun _ _ _ _ lexed isNewline => lex_newline lexed isNewline⟩

end KiwiFront
