import KiwiFront.Proofs.Lexer.Beginnings
import KiwiFront.Proofs.Lexer.Condense
import KiwiFront.Proofs.Lexer.Coverage
import KiwiFront.TokenScript

/-!
# Token scripts and the lexer

A script keeps its row, its column and whether a word stands right before by hand. Where its items
are spelled as the language spells them, no signs of it run into a longer operator and no line of it
is empty, the tokens it lays out are those that the lexer finds in its text.
-/

namespace KiwiFront

namespace ScriptItem

/-- The operators of one sign whose kind a script knows. -/
def signs : List String := ["(", ")", ":", ";", ",", ".", "*", "+", "="]

/-- The longer operators that begin with one of the signs. -/
def repeatedSigns : List String := ["**", "==", "..."]

/-- A word is a name of the language, and an operator is one whose kind a script knows. -/
def Spelled : ScriptItem -> Prop
  | .word text => LexicalRule.name.Matches text.toList
  | .punctuation text => text ∈ signs
  | .token _ _ => False
  | .newline => True

instance : DecidablePred Spelled
  | .word text => inferInstanceAs (Decidable (LexicalRule.name.Matches text.toList))
  | .punctuation text => inferInstanceAs (Decidable (text ∈ signs))
  | .token _ _ => inferInstanceAs (Decidable False)
  | .newline => inferInstanceAs (Decidable True)

/-- Every sign is a single character. -/
theorem sign_oneCharacter : ∀ text ∈ signs, text.toList.length = 1 := by decide

/-- No sign is a line feed or goes into a name. -/
theorem sign_apart : ∀ text ∈ signs, '\n' ∉ text.toList ∧
    text.toList.all (!LexicalRule.namePart.contains ·) = true := by decide

/-- A listed sign as the character that it is. -/
theorem exists_of_mem_signs {text : String} (isSign : text ∈ signs) :
    ∃ sign, text = String.ofList [sign] ∧ sign ≠ '\n' ∧
      LexicalRule.namePart.contains sign = false := by
  obtain ⟨sign, isText⟩ := List.length_eq_one_iff.1 (sign_oneCharacter text isSign)
  have apart := sign_apart text isSign
  rw [isText, List.mem_singleton, List.all_eq_true] at apart
  refine ⟨sign, by rw [← isText, String.ofList_toList], Ne.symm apart.1, ?_⟩
  simpa using apart.2 sign (List.mem_singleton_self sign)

/-- Only the rule of its own operator and those of longer ones begin with a sign. -/
theorem sign_remaining : ∀ text ∈ signs, ∀ rule ∈ LexicalRule.all,
    rule.2.beginsApart (.oneOf text.toList) = true ∨
      rule = (.token (operatorKind text), .literal text.toList) ∨
      ∃ long ∈ repeatedSigns, rule.2 = .literal long.toList := by decide +kernel

/-- Every sign has a rule that describes it literally and gives its kind. -/
theorem sign_listed : ∀ text ∈ signs,
    (PieceClass.token (operatorKind text), Pattern.literal text.toList) ∈ LexicalRule.all := by
  decide

/-- A sign is read as what it is: it is neither dropped nor taken for an error. -/
theorem sign_kind : ∀ text ∈ signs, (operatorKind text).isTrivia = false ∧
    operatorKind text ≠ .errorToken := by decide

/-- What is spelled well is neither dropped nor a sigil. -/
theorem kind_plain {item : ScriptItem} (spelled : item.Spelled) :
    item.kind.isTrivia = false ∧ item.kind ≠ .errorToken := by
  cases item with
  | word | newline => exact ⟨rfl, nofun⟩
  | punctuation text => exact sign_kind text spelled
  | token => exact spelled.elim

/-- Only a line break has a line feed in it. -/
theorem text_oneLine {item : ScriptItem} (spelled : item.Spelled) (notNewline : item ≠ .newline) :
    '\n' ∉ item.text.toList := by
  cases item with
  | word text => exact Pattern.not_mem_of_avoids (by decide) spelled
  | punctuation text => exact (sign_apart text spelled).1
  | token => exact spelled.elim
  | newline => exact absurd rfl notNewline

/-- The piece of source text that an item becomes. -/
def piece (item : ScriptItem) : Piece :=
  ⟨if item = .newline then .lineBreak else .token item.kind, item.text.toList⟩

end ScriptItem

namespace TokenScript

open Pattern Piece ScriptItem

/-- No signs of a script run into a longer operator. -/
@[mk_iff]
structure Unfused (items : List ScriptItem) : Prop where
  stars : ¬ [.punctuation "*", .punctuation "*"] <:+: items
  equals : ¬ [.punctuation "=", .punctuation "="] <:+: items
  dots : ¬ [.punctuation ".", .punctuation ".", .punctuation "."] <:+: items

/-- A script that is written line by line: it is empty or ends in a line break, and every line
break has something before it on its line. -/
@[mk_iff]
structure Written (items : List ScriptItem) : Prop where
  spelled : ∀ item ∈ items, item.Spelled
  unfused : Unfused items
  begun : items.head? ≠ some .newline
  filled : ¬ [.newline, .newline] <:+: items
  closed : ∀ last ∈ items.getLast?, last = .newline

instance : DecidablePred Unfused := fun items => decidable_of_iff' _ (unfused_iff items)

instance : DecidablePred Written := fun items => decidable_of_iff' _ (written_iff items)

variable {item : ScriptItem} {items rest : List ScriptItem} {afterWord : Bool}

/-- What is left of a script has no more signs in a row than the whole. -/
theorem Unfused.tail (unfused : Unfused (item :: rest)) : Unfused rest where
  stars inside := unfused.stars (List.infix_cons inside)
  equals inside := unfused.equals (List.infix_cons inside)
  dots inside := unfused.dots (List.infix_cons inside)

/-- The blank before an item. -/
def gap (afterWord : Bool) (item : ScriptItem) : List Piece :=
  if afterWord && item.isWord then [⟨.skipped, [' ']⟩] else []

/-- The pieces of the text of some items. -/
def piecesFrom (afterWord : Bool) : List ScriptItem -> List Piece
  | [] => []
  | item :: rest => gap afterWord item ++ item.piece :: piecesFrom item.isWord rest

/-- A word begins as a name does. -/
theorem word_begins {text : String} (spelled : (ScriptItem.word text).Spelled) :
    ∃ head behind, text.toList = head :: behind ∧ LexicalRule.nameStart.contains head = true := by
  obtain ⟨head, behind, isText, begins, _⟩ := matches_run_iff.1 spelled
  exact ⟨head, behind, isText, begins⟩

/-- Signs at the front of a text come from as many operators. -/
theorem signs_of_prefix {front : List Char} (spelled : ∀ item ∈ items, item.Spelled)
    (areSigns : ∀ sign ∈ front, String.ofList [sign] ∈ signs)
    (isFront : front <+: textFrom false items) :
    front.map (fun sign => ScriptItem.punctuation (String.ofList [sign])) <+: items := by
  induction front generalizing items with
  | nil => exact List.nil_prefix
  | cons sign front inductionHypothesis =>
      rw [List.forall_mem_cons] at areSigns
      obtain ⟨_, same, notFeed, notPart⟩ := exists_of_mem_signs areSigns.1
      obtain rfl : sign = _ := by simpa using congrArg String.toList same
      -- Neither a name nor a line feed begins with a sign, so the first item is an operator.
      cases items with
      | nil => simp [textFrom] at isFront
      | cons item rest =>
          rw [List.forall_mem_cons] at spelled
          cases item with
          | word text =>
              obtain ⟨head, behind, isText, begins⟩ := word_begins spelled.1
              simp only [textFrom, ScriptItem.text, isText] at isFront
              obtain ⟨rfl, _⟩ := List.cons_prefix_cons.1 isFront
              simp [LexicalRule.namePart_of_start begins] at notPart
          | punctuation text =>
              obtain ⟨own, rfl, _⟩ := exists_of_mem_signs spelled.1
              simp only [textFrom, ScriptItem.text, String.toList_ofList] at isFront
              obtain ⟨rfl, later⟩ := List.cons_prefix_cons.1 isFront
              exact List.cons_prefix_cons.2
                ⟨rfl, inductionHypothesis spelled.2 areSigns.2 later⟩
          | token => exact spelled.1.elim
          | newline => exact absurd (List.cons_prefix_cons.1 isFront).1 notFeed

/-- Signs of a script that do not run into a longer operator do not spell one in its text. -/
theorem Unfused.apart (unfused : Unfused items) (spelled : ∀ item ∈ items, item.Spelled) :
    ∀ long ∈ repeatedSigns, ¬ long.toList <+: textFrom false items := by
  have areSigns : ∀ long ∈ repeatedSigns, ∀ sign ∈ long.toList,
      String.ofList [sign] ∈ signs := by simp [repeatedSigns, signs]
  intro long listed isFront
  have begins := signs_of_prefix spelled (areSigns long listed) isFront
  simp only [repeatedSigns, List.mem_cons, List.not_mem_nil, or_false] at listed
  rcases listed with rfl | rfl | rfl
  · exact unfused.stars begins.isInfix
  · exact unfused.equals begins.isInfix
  · exact unfused.dots begins.isInfix

/-- An operator is a piece where no longer one begins. -/
theorem munches_sign {text : String} {later : List Char} (isSign : text ∈ signs)
    (apart : ∀ long ∈ repeatedSigns, ¬ long.toList <+: text.toList ++ later) :
    Munches (.token (operatorKind text)) text.toList later := by
  have remaining := sign_remaining text isSign
  have listed := sign_listed text isSign
  obtain ⟨sign, rfl, _⟩ := exists_of_mem_signs isSign
  rw [String.toList_ofList] at remaining listed apart ⊢
  refine munches_of_beginning (CharClass.contains_oneOf_iff.2 (List.mem_singleton_self sign))
    ⟨_, listed, matches_literal_iff.2 rfl⟩ fun rule ruleListed => ?_
  rcases remaining rule ruleListed with beginsApart | rfl | ⟨long, isLong, same⟩
  · exact .inl beginsApart
  · refine .inr fun longer _ described => ⟨rfl, ?_⟩
    rw [matches_literal_iff.1 described]
  · -- What the rule of a longer operator describes does not stand here.
    refine .inr fun longer isFront described => ?_
    rw [same, matches_literal_iff] at described
    exact absurd (described ▸ isFront) (apart long isLong)

/-- What follows a word in the text of a script does not go on with its name. -/
theorem namePart_behind_word (spelled : ∀ item ∈ items, item.Spelled) :
    ∀ next ∈ (textFrom true items).head?, LexicalRule.namePart.contains next = false := by
  cases items with
  | nil => nofun
  | cons item rest =>
      rw [List.forall_mem_cons] at spelled
      cases item with
      | word text =>
          rintro _ ⟨⟩
          decide
      | punctuation text =>
          obtain ⟨sign, rfl, _, notPart⟩ := exists_of_mem_signs spelled.1
          simpa [textFrom, ScriptItem.text, isWord] using notPart
      | token => exact spelled.1.elim
      | newline =>
          rintro _ ⟨⟩
          decide

/-- An item is the first piece of a text that begins with it. -/
theorem split_item (spelled : ∀ each ∈ item :: rest, each.Spelled)
    (unfused : Unfused (item :: rest)) :
    split (item.text.toList ++ textFrom item.isWord rest) =
      item.piece :: split (textFrom item.isWord rest) := by
  have apart := unfused.apart spelled
  rw [List.forall_mem_cons] at spelled
  cases item with
  | word text =>
      exact split_of_munches (munches_run LexicalRule.name_listed LexicalRule.name_alone spelled.1
        (namePart_behind_word spelled.2))
  | punctuation text => exact split_of_munches (munches_sign spelled.1 apart)
  | token => exact spelled.1.elim
  | newline =>
      have alone : ¬ JoinsLineFeed [] := by decide
      have cut : split ([] ++ '\n' :: textFrom false rest) = _ := split_append alone
      rw [split] at cut
      exact cut

/-- A blank before a word is a piece by itself. -/
theorem split_gap (spelled : item.Spelled) (later : List Char) :
    split ((if afterWord && item.isWord then [' '] else []) ++ (item.text.toList ++ later)) =
      gap afterWord item ++ split (item.text.toList ++ later) := by
  unfold gap
  split
  · rename_i isGapped
    cases item with
    | word text =>
        obtain ⟨head, behind, isText, begins⟩ := word_begins spelled
        have isBlank : (run LexicalRule.blankPart LexicalRule.blankPart).Matches [' '] := by decide
        refine split_of_munches
          (munches_run LexicalRule.blank_listed LexicalRule.blank_alone isBlank ?_)
        rw [ScriptItem.text, isText]
        rintro _ ⟨⟩
        exact CharClass.not_contains_of_isApart (by decide) begins
    | punctuation | token | newline => simp [isWord] at isGapped
  · rfl

/-- The text of a script is cut into the pieces of its items. -/
theorem split_textFrom (afterWord : Bool) (spelled : ∀ item ∈ items, item.Spelled)
    (unfused : Unfused items) : split (textFrom afterWord items) = piecesFrom afterWord items := by
  induction items generalizing afterWord with
  | nil => simp [textFrom, piecesFrom, split]
  | cons item rest inductionHypothesis =>
      have itemSpelled := spelled item List.mem_cons_self
      have restSpelled := (List.forall_mem_cons.1 spelled).2
      rw [textFrom, List.append_assoc, split_gap itemSpelled, split_item spelled unfused,
        inductionHypothesis item.isWord restSpelled unfused.tail, piecesFrom]

/-- A blank moves what follows it by one column. -/
theorem place_gap (position : Position) (hasContent : Bool) (pieces : List Piece) :
    Scan.place position hasContent (gap afterWord item ++ pieces) =
      Scan.place ⟨position.row, position.column + if afterWord && item.isWord then 1 else 0⟩
        hasContent pieces := by
  unfold gap
  split <;> simp [Scan.place, Position.advance]

/-- A line break that ends a line with content is placed as a script places it. -/
theorem place_newline (position : Position) (pieces : List Piece) :
    Scan.place position true (ScriptItem.newline.piece :: pieces) =
      Token.placed .newline "\n" position.row position.column ::
        Scan.place ⟨position.row + 1, 1⟩ false pieces := rfl

/-- Any other item is placed as a script places it, and its line has content from there on. -/
theorem place_item (spelled : item.Spelled) (notNewline : item ≠ .newline) (position : Position)
    (hasContent : Bool) (pieces : List Piece) :
    let token := Token.placed item.kind item.text position.row position.column
    Scan.place position hasContent (item.piece :: pieces) =
      token :: Scan.place token.stop true pieces := by
  have notComment : (item.kind != .comment) = true := by
    have plain := (kind_plain spelled).1
    cases isKind : item.kind <;> first | rfl | simp [isKind, TokenKind.isTrivia] at plain
  simp [Scan.place, ScriptItem.piece, notNewline, notComment, Piece.text, Token.placed,
    String.length_toList, Position.advanceBy_of_not_mem position (text_oneLine spelled notNewline)]

/-- What is left of a script that is written line by line, where `hasContent` tells whether
something stands before it on its line. -/
structure LinesFilled (hasContent : Bool) (items : List ScriptItem) : Prop where
  begun : hasContent = false -> items.head? ≠ some .newline
  filled : ¬ [.newline, .newline] <:+: items
  closed : ∀ last ∈ items.getLast?, last = .newline
  ended : items = [] -> hasContent = false

namespace LinesFilled

variable {hasContent : Bool}

/-- A line break at the end is still the last item behind the first one. -/
theorem closed_tail (lines : LinesFilled hasContent (item :: rest)) :
    ∀ last ∈ rest.getLast?, last = .newline := by
  intro last isLast
  refine lines.closed last ?_
  rw [List.getLast?_cons, isLast]
  rfl

/-- A line break ends a line with content, and nothing stands on the next line yet. -/
theorem behind_newline (lines : LinesFilled hasContent (.newline :: rest)) :
    hasContent = true ∧ LinesFilled false rest := by
  refine ⟨Bool.eq_true_of_not_eq_false (lines.begun · rfl), ?_, ?_, lines.closed_tail,
    fun _ => rfl⟩
  · intro _ isNext
    obtain ⟨behind, rfl⟩ := List.head?_eq_some_iff.1 isNext
    exact lines.filled (List.prefix_append _ behind).isInfix
  · exact fun inside => lines.filled (List.infix_cons inside)

/-- Any other item is content, and something follows it. -/
theorem behind_item (lines : LinesFilled hasContent (item :: rest))
    (notNewline : item ≠ .newline) : LinesFilled true rest where
  begun noContent := nomatch noContent
  filled inside := lines.filled (List.infix_cons inside)
  closed := lines.closed_tail
  ended := by
    rintro rfl
    exact absurd (lines.closed item rfl) notNewline

end LinesFilled

/-- A script lays out its tokens where the lexer places those of its pieces. -/
theorem place_piecesFrom (position : Position) (hasContent : Bool)
    (spelled : ∀ item ∈ items, item.Spelled) (lines : LinesFilled hasContent items) :
    Scan.place position hasContent (piecesFrom afterWord items) =
      layFrom position afterWord items := by
  induction items generalizing position hasContent afterWord with
  | nil =>
      rw [lines.ended rfl]
      rfl
  | cons item rest inductionHypothesis =>
      rw [List.forall_mem_cons] at spelled
      rw [piecesFrom, place_gap, layFrom]
      -- Only a line break changes the row, and only it may leave a line without content.
      by_cases isNewline : item = .newline
      · subst isNewline
        obtain ⟨rfl, later⟩ := lines.behind_newline
        rw [place_newline, inductionHypothesis _ false spelled.2 later]
        rfl
      · have later := lines.behind_item isNewline
        rw [place_item spelled.1 isNewline, inductionHypothesis _ true spelled.2 later,
          if_neg isNewline]

/-- The tokens of a script are neither dropped nor joined. -/
theorem layFrom_plain (spelled : ∀ item ∈ items, item.Spelled) (position : Position) :
    ∀ token ∈ layFrom position afterWord items,
      token.isDropped = false ∧ token.isSigil = false := by
  have isPlain (token : Token) (plain : token.kind.isTrivia = false ∧ token.kind ≠ .errorToken) :
      token.isDropped = false ∧ token.isSigil = false := by
    simp [Token.isDropped, Token.isSigil, plain.1, plain.2]
  induction items generalizing position afterWord with
  | nil =>
      have notError : TokenKind.endMarker ≠ .errorToken := by decide
      exact List.forall_mem_singleton.2 (isPlain _ ⟨rfl, notError⟩)
  | cons item rest inductionHypothesis =>
      rw [List.forall_mem_cons] at spelled
      exact List.forall_mem_cons.2
        ⟨isPlain _ (kind_plain spelled.1), inductionHypothesis spelled.2 _⟩

/-- What a script lays out are the raw tokens of its text. -/
theorem scan_text (written : Written items) :
    scan (TokenScript.text items) = Scan.encodingToken :: tokens items := by
  have isSplit := split_textFrom false written.spelled written.unfused
  have lines : LinesFilled false items :=
    ⟨fun _ => written.begun, written.filled, written.closed, fun _ => rfl⟩
  have isPlaced : Scan.place .first false (piecesFrom false items) = tokens items :=
    place_piecesFrom .first false written.spelled lines
  rw [Scan.scan_eq_place, TokenScript.text, String.toList_ofList, isSplit, isPlaced]

/-- Condensing a written script only takes the encoding mark away. -/
theorem condense_text (joinNames : Bool) (written : Written items) :
    condense joinNames (Scan.encodingToken :: tokens items) = tokens items := by
  rw [condense_dropped (by rfl)]
  exact condense_of_plain (layFrom_plain written.spelled .first)

end TokenScript

end KiwiFront
