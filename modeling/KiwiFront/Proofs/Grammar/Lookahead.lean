import KiwiFront.Proofs.Grammar.Productions

/-!
# What comes next

Where a part ends is decided by the token behind it. A repetition stops before a token that
begins no further item, and an optional part is left out before one that does not begin it.
The texts of operators tell them from other tokens only if no other token has such a text.
-/

namespace KiwiFront

open Peg

/-- The operators of the language, by their texts. -/
def KiwiGrammar.operators : List (String × TokenKind) :=
  [(".", .dot), ("*", .star), (";", .semicolon), ("(", .leftParen), (")", .rightParen),
    (":", .colon)]

/-- A token that has a place, and the text of an operator only if it is that operator. -/
structure Token.Proper (token : Token) : Prop where
  located : token.span.isLocated = true
  operator : ∀ entry ∈ KiwiGrammar.operators, token.text = entry.1 -> token.kind = entry.2

instance (token : Token) : Decidable token.Proper :=
  decidable_of_iff (token.span.isLocated = true ∧
      ∀ entry ∈ KiwiGrammar.operators, token.text = entry.1 -> token.kind = entry.2)
    ⟨fun ⟨located, operator⟩ => ⟨located, operator⟩, fun proper => ⟨proper.1, proper.2⟩⟩

/-- A token that has a place, and the text of a star only if it is one. -/
structure Token.Plain (token : Token) : Prop where
  located : token.span.isLocated = true
  star : token.text = "*" -> token.kind = .star

instance (token : Token) : Decidable token.Plain :=
  decidable_of_iff (token.span.isLocated = true ∧ (token.text = "*" -> token.kind = .star))
    ⟨fun ⟨located, star⟩ => ⟨located, star⟩, fun plain => ⟨plain.1, plain.2⟩⟩

/-- No name is a star. -/
theorem Token.Plain.not_star_of_name {token : Token} (plain : token.Plain)
    (isName : Terminal.name.Matches token) : ¬ (Terminal.operator "*").Matches token := by
  rintro ⟨_, sameText⟩
  cases isName.1.symm.trans (plain.star sameText)

namespace Token.Proper

variable {token : Token} {text : String}

/-- A proper token has the text of a star only if it is one. -/
theorem plain (proper : token.Proper) : token.Plain :=
  ⟨proper.located, proper.operator ("*", .star) (by decide)⟩

/-- No token of a kind that is none of an operator is one. -/
theorem not_operator (proper : token.Proper)
    (noOperator : ∀ entry ∈ KiwiGrammar.operators, token.kind ≠ entry.2)
    (listed : text ∈ KiwiGrammar.operators.map Prod.fst) :
    ¬ (Terminal.operator text).Matches token := by
  obtain ⟨entry, member, rfl⟩ := List.mem_map.1 listed
  rintro ⟨_, sameText⟩
  exact noOperator entry member (proper.operator entry member sameText)

/-- A proper name is no operator, whatever its text. -/
theorem not_operator_of_name (proper : token.Proper) (isName : token.kind = .name)
    (listed : text ∈ KiwiGrammar.operators.map Prod.fst) :
    ¬ (Terminal.operator text).Matches token := by
  refine proper.not_operator ?_ listed
  rw [isName]
  decide

/-- A proper line break is no operator, whatever its text. -/
theorem not_operator_of_newline (proper : token.Proper) (isNewline : token.kind = .newline)
    (listed : text ∈ KiwiGrammar.operators.map Prod.fst) :
    ¬ (Terminal.operator text).Matches token := by
  refine proper.not_operator ?_ listed
  rw [isNewline]
  decide

end Token.Proper

namespace Terminal

variable {token : Token} {terminal : Terminal} {left right tokens : List Token}

/-- No token that a terminal stands for comes next. -/
def NotNext (terminal : Terminal) (tokens : List Token) : Prop :=
  ∀ token ∈ tokens.head?, ¬ terminal.Matches token

/-- Nothing at all comes next in an empty list. -/
theorem notNext_nil : terminal.NotNext [] :=
  nofun

/-- It is enough to look at the token in front. -/
theorem notNext_cons (other : ¬ terminal.Matches token) : terminal.NotNext (token :: tokens) := by
  rintro next ⟨⟩
  exact other

/-- The tokens behind matter only where there are none in front of them. -/
theorem notNext_append (here : terminal.NotNext left) (behind : terminal.NotNext right) :
    terminal.NotNext (left ++ right) := by
  cases left with
  | nil => exact behind
  | cons token rest => exact notNext_cons (here token rfl)

/-- If no part begins with a terminal, no repetition of parts does. -/
theorem notNext_repeats {part : List Token -> Prop} (repeats : Repeats part tokens)
    (inParts : ∀ piece, part piece -> terminal.NotNext piece) : terminal.NotNext tokens := by
  induction repeats with
  | none => exact notNext_nil
  | more head _ inductionHypothesis => exact notNext_append (inParts _ head) inductionHypothesis

end Terminal

namespace KiwiGrammar

variable {token : Token} {tokens : List Token} {text : String}

/-- A line break or a semicolon. -/
def EndsStatement (token : Token) : Prop :=
  Terminal.newline.Matches token ∨ (Terminal.operator ";").Matches token

/-- A terminator derives a single token. -/
theorem derives_semi_iff :
    kiwiGrammar.Derives keywords .semi tokens ↔
      ∃ token, EndsStatement token ∧ tokens = [token] := by
  refine derives_iff.trans ?_
  constructor
  · rintro (⟨token, isNewline, rfl⟩ | ⟨token, isSemicolon, rfl⟩)
    · exact ⟨token, .inl isNewline, rfl⟩
    · exact ⟨token, .inr isSemicolon, rfl⟩
  · rintro ⟨token, isNewline | isSemicolon, rfl⟩
    · exact .inl ⟨token, isNewline, rfl⟩
    · exact .inr ⟨token, isSemicolon, rfl⟩

/-- No keyword ends a statement. -/
theorem EndsStatement.not_keyword (ends : EndsStatement token) (other : text ≠ ";") :
    ¬ (Terminal.keyword text).Matches token := by
  rintro ⟨isName, sameText⟩
  rcases ends with isNewline | ⟨_, semicolon⟩
  · cases isName.symm.trans isNewline
  · exact other (sameText.symm.trans semicolon)

/-- No operator but the semicolon ends a statement. -/
theorem EndsStatement.not_operator (ends : EndsStatement token) (proper : token.Proper)
    (listed : text ∈ operators.map Prod.fst) (other : text ≠ ";") :
    ¬ (Terminal.operator text).Matches token := by
  rcases ends with isNewline | ⟨_, semicolon⟩
  · exact proper.not_operator_of_newline isNewline listed
  · rintro ⟨_, sameText⟩
    exact other (sameText.symm.trans semicolon)

/-- The words that a modifier can be. -/
def modifierWords : List String := ["public", "private", "internal"]

/-- A modifier derives a single token, one of three words. -/
theorem derives_modifier_iff :
    kiwiGrammar.Derives keywords .modifier tokens ↔
      ∃ word ∈ modifierWords, ∃ token, (Terminal.keyword word).Matches token ∧
        tokens = [token] := by
  refine derives_iff.trans ?_
  simp [Production.of, Production.Describes, Production.word, modifierWords]

/-- A modifier is none of the other words. -/
theorem modifier_notNext (derived : kiwiGrammar.Derives keywords .modifier tokens)
    (other : text ∉ modifierWords) : (Terminal.keyword text).NotNext tokens := by
  obtain ⟨word, listed, token, ⟨_, sameText⟩, rfl⟩ := derives_modifier_iff.1 derived
  refine Terminal.notNext_cons ?_
  rintro ⟨_, otherText⟩
  rw [← otherText, sameText] at other
  exact other listed

/-- No word but a modifier or `fun` begins a declaration. -/
theorem topLevelObject_notNext (derived : kiwiGrammar.Derives keywords .topLevelObject tokens)
    (noModifier : text ∉ modifierWords) (notFun : text ≠ "fun") :
    (Terminal.keyword text).NotNext tokens := by
  obtain ⟨_, _, rfl, declared, _⟩ := derives_iff.1 derived
  have function := derives_iff.1 declared
  obtain ⟨modifiers, _, rfl, listed, _, _, rfl, ⟨word, ⟨_, isFun⟩, rfl⟩, _⟩ :=
    derives_iff.1 function
  rw [List.append_assoc]
  have noneListed : (Terminal.keyword text).NotNext modifiers :=
    Terminal.notNext_repeats (derives_iff.1 listed) fun piece isModifier =>
      modifier_notNext isModifier noModifier
  refine Terminal.notNext_append noneListed (Terminal.notNext_cons ?_)
  rintro ⟨_, otherText⟩
  exact notFun (otherText.symm.trans isFun)

end KiwiGrammar

end KiwiFront
