import KiwiFront.Lexer.Pattern

/-!
# Derivatives of patterns

`Pattern.Matches` is authoritative. The derivative of a pattern by a character describes
exactly what may follow that character, and `acceptsEmpty` tells whether nothing may follow,
so that both together decide which texts a pattern describes.
-/

namespace KiwiFront

/-- A class of listed characters holds just those. -/
theorem CharClass.contains_oneOf_iff {characters : List Char} {character : Char} :
    (CharClass.oneOf characters).contains character = true ↔ character ∈ characters := by
  simp only [contains, oneOf, List.any_map, Bool.bne_false, List.any_eq_true, Function.comp,
    Bool.and_eq_true, decide_eq_true_eq]
  constructor
  · rintro ⟨other, member, low, high⟩
    rwa [Char.le_antisymm high low]
  · intro member
    exact ⟨character, member, Char.le_refl _, Char.le_refl _⟩

namespace Pattern

variable {first second body : Pattern} {character : Char} {text rest : List Char}

/-- No text is described by a pattern that never matches. -/
theorem not_matches_never : ¬ Matches .never text := nofun

/-- The empty pattern describes the empty text. -/
theorem matches_empty_iff : Matches .empty text ↔ text = [] := by
  constructor
  · rintro ⟨⟩
    rfl
  · rintro rfl
    exact .empty

/-- A class describes its characters as texts of length one. -/
theorem matches_one_iff {charClass : CharClass} :
    Matches (.one charClass) text ↔
      ∃ character, charClass.contains character = true ∧ text = [character] := by
  constructor
  · rintro ⟨⟩
    exact ⟨_, ‹_›, rfl⟩
  · rintro ⟨character, belongs, rfl⟩
    exact .one belongs

/-- A sequence describes a text cut in two. -/
theorem matches_sequence_iff :
    Matches (.sequence first second) text ↔
      ∃ left right, text = left ++ right ∧ Matches first left ∧ Matches second right := by
  constructor
  · rintro ⟨⟩
    exact ⟨_, _, rfl, ‹_›, ‹_›⟩
  · rintro ⟨left, right, rfl, before, after⟩
    exact .sequence before after

/-- A choice describes what either side does. -/
theorem matches_either_iff :
    Matches (.either first second) text ↔ Matches first text ∨ Matches second text := by
  constructor
  · intro described
    cases described with
    | first described => exact .inl described
    | second described => exact .inr described
  · rintro (described | described)
    · exact .first described
    · exact .second described

/-- A literal describes itself. -/
theorem matches_literal_iff {characters : List Char} :
    Matches (literal characters) text ↔ text = characters := by
  fun_induction literal characters generalizing text with
  | case1 => exact matches_empty_iff
  | case2 character => simp [matches_one_iff, CharClass.contains_oneOf_iff]
  | case3 character rest _ inductionHypothesis =>
      simp [matches_sequence_iff, matches_one_iff, CharClass.contains_oneOf_iff,
        inductionHypothesis]

/-- Leaving the trivial cases out of a sequence does not change what it describes. -/
theorem matches_joined_iff :
    Matches (joined first second) text ↔ Matches (.sequence first second) text := by
  unfold joined
  split
  · simp only [matches_sequence_iff, not_matches_never, false_and, and_false, exists_false]
  · simp only [matches_sequence_iff, not_matches_never, and_false, exists_false]
  · simp only [matches_sequence_iff, matches_empty_iff]
    constructor
    · intro described
      exact ⟨[], text, rfl, rfl, described⟩
    · rintro ⟨left, right, rfl, rfl, described⟩
      exact described
  · exact Iff.rfl

/-- Leaving the trivial cases out of a choice does not change what it describes. -/
theorem matches_united_iff :
    Matches (united first second) text ↔ Matches (.either first second) text := by
  rw [matches_either_iff]
  unfold united
  split
  · simp only [not_matches_never, false_or]
  · simp only [not_matches_never, or_false]
  · split
    · rename_i same
      rw [same, or_self]
    · exact matches_either_iff

/-- A pattern accepts the empty text by its shape exactly when it describes it. -/
theorem acceptsEmpty_iff (pattern : Pattern) :
    pattern.acceptsEmpty = true ↔ pattern.Matches [] := by
  induction pattern with
  | never => simp only [acceptsEmpty, not_matches_never, Bool.false_eq_true]
  | empty => simp only [acceptsEmpty, matches_empty_iff]
  | one charClass =>
      simp only [acceptsEmpty, matches_one_iff, Bool.false_eq_true, false_iff]
      rintro ⟨_, _, ⟨⟩⟩
  | sequence first second firstHypothesis secondHypothesis =>
      rw [acceptsEmpty, Bool.and_eq_true, firstHypothesis, secondHypothesis, matches_sequence_iff]
      constructor
      · rintro ⟨before, after⟩
        exact ⟨[], [], rfl, before, after⟩
      · rintro ⟨left, right, isNil, before, after⟩
        obtain ⟨rfl, rfl⟩ := List.append_eq_nil_iff.1 isNil.symm
        exact ⟨before, after⟩
  | either first second firstHypothesis secondHypothesis =>
      rw [acceptsEmpty, Bool.or_eq_true, firstHypothesis, secondHypothesis, matches_either_iff]
  | many body => exact ⟨fun _ => .stop, fun _ => rfl⟩

/-- A character that begins a sequence begins its first part, or its second one behind an
empty first part. -/
theorem matches_sequence_cons_iff :
    Matches (.sequence first second) (character :: rest) ↔
      (∃ left right, rest = left ++ right ∧ Matches first (character :: left) ∧
        Matches second right) ∨
      (Matches first [] ∧ Matches second (character :: rest)) := by
  rw [matches_sequence_iff]
  constructor
  · rintro ⟨left, right, split, before, after⟩
    cases left with
    | nil =>
        rw [split]
        exact .inr ⟨before, after⟩
    | cons head left =>
        obtain ⟨rfl, rfl⟩ := List.cons.inj split
        exact .inl ⟨left, right, rfl, before, after⟩
  · rintro (⟨left, right, rfl, before, after⟩ | ⟨before, after⟩)
    · exact ⟨character :: left, right, rfl, before, after⟩
    · exact ⟨[], character :: rest, rfl, before, after⟩

/-- A character that begins a repetition begins a text that is repeated; empty ones before
it do not count. -/
theorem matches_many_cons_iff :
    Matches (.many body) (character :: rest) ↔
      ∃ left right, rest = left ++ right ∧ Matches body (character :: left) ∧
        Matches (.many body) right := by
  constructor
  · intro described
    generalize isMany : Pattern.many body = pattern at described
    generalize isText : character :: rest = text at described
    induction described with
    | empty | one | sequence | first | second | stop => cases isMany <;> cases isText
    | @more _ left right before after _ laterHypothesis =>
        cases isMany
        cases left with
        -- An empty round leaves the character to the rounds behind it.
        | nil => exact laterHypothesis rfl isText
        | cons head left =>
            obtain ⟨rfl, rfl⟩ := List.cons.inj isText
            exact ⟨left, right, rfl, before, after⟩
  · rintro ⟨left, right, rfl, before, after⟩
    exact .more before after

/-- The derivative of a pattern by a character describes what may follow it. -/
theorem matches_derivative_iff (pattern : Pattern) :
    (pattern.derivative character).Matches rest ↔ pattern.Matches (character :: rest) := by
  induction pattern generalizing rest with
  | never => simp only [derivative, not_matches_never]
  | empty => simp only [derivative, not_matches_never, matches_empty_iff, reduceCtorEq]
  | one charClass =>
      rw [matches_one_iff, derivative]
      split
      · rename_i belongs
        rw [matches_empty_iff]
        constructor
        · rintro rfl
          exact ⟨character, belongs, rfl⟩
        · rintro ⟨_, _, same⟩
          exact (List.cons.inj same).2
      · rename_i outside
        simp only [not_matches_never, false_iff]
        rintro ⟨_, belongs, same⟩
        obtain ⟨rfl, rfl⟩ := List.cons.inj same
        exact outside belongs
  | sequence first second firstHypothesis secondHypothesis =>
      have through : (joined (first.derivative character) second).Matches rest ↔
          ∃ left right, rest = left ++ right ∧ Matches first (character :: left) ∧
            Matches second right := by
        simp only [matches_joined_iff, matches_sequence_iff, firstHypothesis]
      rw [matches_sequence_cons_iff, derivative, ← acceptsEmpty_iff]
      split
      · rename_i skippable
        simp only [matches_united_iff, matches_either_iff, through, secondHypothesis, skippable,
          true_and]
      · rename_i needed
        simp only [through, needed, false_and, or_false, Bool.false_eq_true]
  | either first second firstHypothesis secondHypothesis =>
      rw [derivative, matches_united_iff, matches_either_iff, matches_either_iff,
        firstHypothesis, secondHypothesis]
  | many body bodyHypothesis =>
      simp only [derivative, matches_joined_iff, matches_sequence_iff, matches_many_cons_iff,
        bodyHypothesis]

/-- Whether a text is described is decided one character after the other. -/
instance decidableMatches : (pattern : Pattern) -> (text : List Char) ->
    Decidable (pattern.Matches text)
  | pattern, [] => decidable_of_iff _ (acceptsEmpty_iff pattern)
  | pattern, character :: rest =>
      have := decidableMatches (pattern.derivative character) rest
      decidable_of_iff _ (matches_derivative_iff pattern)

end Pattern

end KiwiFront
