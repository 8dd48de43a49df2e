import KiwiFront.Proofs.Lexer.Lines

/-!
# Beginnings

The first character of a text decides which rules can describe it at all, and for most characters
that leaves one rule or two. So a piece can be known from a text and from what follows it: nothing
that begins like it may be described beyond its end.
-/

namespace KiwiFront

namespace CharClass

/-- Whether two classes are seen to have no character in common. -/
def isApart (left right : CharClass) : Bool :=
  !left.complemented && !right.complemented &&
    left.ranges.all fun (low, high) => right.ranges.all fun (otherLow, otherHigh) =>
      decide (high < otherLow) || decide (otherHigh < low)

/-- A character of one class is not in a class apart from it. -/
theorem not_contains_of_isApart {left right : CharClass} {character : Char}
    (apart : left.isApart right = true) (inLeft : left.contains character = true) :
    right.contains character = false := by
  obtain ⟨leftRanges, leftComplemented⟩ := left
  obtain ⟨rightRanges, rightComplemented⟩ := right
  simp only [isApart, Bool.and_eq_true, Bool.not_eq_true', List.all_eq_true, Bool.or_eq_true,
    decide_eq_true_eq] at apart
  obtain ⟨⟨rfl, rfl⟩, disjoint⟩ := apart
  simp only [contains, Bool.bne_false, List.any_eq_true, Bool.and_eq_true,
    decide_eq_true_eq] at inLeft
  obtain ⟨⟨low, high⟩, listed, above, below⟩ := inLeft
  simp only [contains, Bool.bne_false, List.any_eq_false, Bool.and_eq_true, decide_eq_true_eq]
  rintro ⟨otherLow, otherHigh⟩ otherListed ⟨otherAbove, otherBelow⟩
  rcases disjoint _ listed _ otherListed with before | behind
  · exact absurd (Std.lt_of_lt_of_le before otherAbove) (Std.not_lt.2 below)
  · exact absurd (Std.lt_of_le_of_lt otherBelow behind) (Std.not_lt.2 above)

/-- More ranges hold more characters. -/
theorem contains_of_subset {ranges more : List (Char × Char)} (subset : ranges ⊆ more)
    {character : Char} (belongs : (within ranges).contains character = true) :
    (within more).contains character = true := by
  simp only [contains, within, Bool.bne_false, List.any_eq_true] at belongs ⊢
  obtain ⟨range, listed, inside⟩ := belongs
  exact ⟨range, subset listed, inside⟩

end CharClass

namespace Pattern

variable {charClass first part : CharClass} {character : Char} {pattern : Pattern}
  {rest text : List Char}

/-- Whether a pattern is seen to describe no text that begins with a character of a class. -/
def beginsApart (charClass : CharClass) : Pattern -> Bool
  | .never | .empty => true
  | .one own => charClass.isApart own
  | .sequence first second =>
      first.beginsApart charClass && (!first.acceptsEmpty || second.beginsApart charClass)
  | .either first second => first.beginsApart charClass && second.beginsApart charClass
  | .many body => body.beginsApart charClass

/-- A pattern that begins apart from a class describes no text that begins in it. -/
theorem not_matches_of_beginsApart (belongs : charClass.contains character = true)
    (apart : pattern.beginsApart charClass = true) : ¬ pattern.Matches (character :: rest) := by
  induction pattern generalizing rest with
  | never => exact not_matches_never
  | empty => simp [matches_empty_iff]
  | one own =>
      rw [matches_one_iff]
      rintro ⟨only, contained, same⟩
      obtain ⟨rfl, _⟩ := List.cons.inj same
      simp [CharClass.not_contains_of_isApart apart belongs] at contained
  | sequence first second firstHypothesis secondHypothesis =>
      simp only [beginsApart, Bool.and_eq_true, Bool.or_eq_true, Bool.not_eq_true'] at apart
      rw [matches_sequence_cons_iff, ← acceptsEmpty_iff]
      rintro (⟨_, _, _, begun, _⟩ | ⟨skipped, begun⟩)
      · exact firstHypothesis apart.1 begun
      · rcases apart.2 with needed | secondApart
        · simp [needed] at skipped
        · exact secondHypothesis secondApart begun
  | either first second firstHypothesis secondHypothesis =>
      simp only [beginsApart, Bool.and_eq_true] at apart
      rw [matches_either_iff]
      rintro (described | described)
      · exact firstHypothesis apart.1 described
      · exact secondHypothesis apart.2 described
  | many body bodyHypothesis =>
      rw [matches_many_cons_iff]
      rintro ⟨_, _, _, begun, _⟩
      exact bodyHypothesis apart begun

/-- Any number of characters of one class. -/
theorem matches_many_one_iff :
    Matches (.many (.one part)) text ↔ ∀ character ∈ text, part.contains character = true := by
  induction text with
  | nil => exact iff_of_true .stop fun _ member => (List.not_mem_nil member).elim
  | cons character rest inductionHypothesis =>
      simp only [matches_many_cons_iff, matches_one_iff, List.forall_mem_cons,
        ← inductionHypothesis]
      constructor
      · rintro ⟨_, _, rfl, ⟨only, belongs, same⟩, later⟩
        obtain ⟨rfl, rfl⟩ := List.cons.inj same
        exact ⟨belongs, later⟩
      · rintro ⟨belongs, later⟩
        exact ⟨[], rest, rfl, ⟨character, belongs, rfl⟩, later⟩

/-- A character of one class, and any number of another one behind it. -/
def run (first part : CharClass) : Pattern := .sequence (.one first) (.many (.one part))

/-- A run is a character of its first class and any number of the other behind it. -/
theorem matches_run_iff :
    (run first part).Matches text ↔ ∃ head rest, text = head :: rest ∧
      first.contains head = true ∧ ∀ character ∈ rest, part.contains character = true := by
  simp only [run, matches_sequence_iff, matches_one_iff, matches_many_one_iff]
  constructor
  · rintro ⟨_, rest, rfl, ⟨head, belongs, rfl⟩, later⟩
    exact ⟨head, rest, rfl, belongs, later⟩
  · rintro ⟨head, rest, rfl, belongs, later⟩
    exact ⟨[head], rest, rfl, ⟨head, belongs, rfl⟩, later⟩

/-- A run reaches no further than to a character that does not belong to it. -/
theorem run_within {front longer : List Char} (described : (run first part).Matches front)
    (ended : ∀ next ∈ rest.head?, part.contains next = false) (isFront : longer <+: front ++ rest)
    (goesOn : (run first part).Matches longer) : longer.length ≤ front.length := by
  by_contra reaches
  obtain ⟨more, rfl⟩ : front <+: longer :=
    List.prefix_of_prefix_length_le (List.prefix_append _ _) isFront (by omega)
  cases more with
  | nil => simp at reaches
  | cons next more =>
      have isNext : next ∈ rest.head? := by
        obtain ⟨_, rfl⟩ := (List.prefix_append_right_inj _).1 isFront
        rfl
      obtain ⟨head, behind, rfl, _⟩ := matches_run_iff.1 described
      obtain ⟨_, _, same, _, belong⟩ := matches_run_iff.1 goesOn
      obtain ⟨rfl, rfl⟩ := List.cons.inj same
      have belongs := belong next (by simp)
      simp [ended next isNext] at belongs

end Pattern

namespace LexicalRule

open Pattern

/-- What a name starts with. -/
def nameStart : CharClass := .within [('A', 'Z'), ('a', 'z'), ('_', '_')]

/-- What a name goes on with. -/
def namePart : CharClass := .within [('A', 'Z'), ('a', 'z'), ('0', '9'), ('_', '_')]

/-- What blanks within a line are made of. -/
def blankPart : CharClass := .oneOf [' ', '\t', '\x0c']

/-- What starts a name may go on with it. -/
theorem namePart_of_start {character : Char} (begins : nameStart.contains character = true) :
    namePart.contains character = true :=
  CharClass.contains_of_subset (by decide) begins

/-- Names are runs of name characters. -/
theorem name_listed : (PieceClass.token .name, run nameStart namePart) ∈ all := by decide

/-- No rule but that of names begins like a name. -/
theorem name_alone : ∀ rule ∈ all, rule.2.beginsApart nameStart = true ∨
    rule = (.token .name, run nameStart namePart) := by decide

/-- Blanks within a line are runs of blank characters. -/
theorem blank_listed : (PieceClass.skipped, run blankPart blankPart) ∈ all := by decide

/-- No rule but that of blanks begins with a blank. -/
theorem blank_alone : ∀ rule ∈ all, rule.2.beginsApart blankPart = true ∨
    rule = (.skipped, run blankPart blankPart) := by decide

end LexicalRule

namespace Piece

open LongestMatch Pattern

variable {pieceClass : PieceClass} {front rest : List Char} {head : Char}
  {charClass first part : CharClass}

/-- Where some front of a text is described, the piece that leads is the longest such front. -/
theorem Leads.longest {piece : Piece} {text : List Char} (leads : Leads piece text)
    (isFront : front <+: text) (described : Describes LexicalRule.all pieceClass front) :
    Longest LexicalRule.all piece.pieceClass piece.characters text := by
  cases leads with
  | recognized _ longest => exact longest
  | openString unmatched | alone unmatched =>
      exact (unmatched pieceClass front isFront described).elim

/-- A front of a text is described for one class, and no other class and no longer front is. -/
structure Munches (pieceClass : PieceClass) (front rest : List Char) : Prop where
  nonempty : front ≠ []
  described : Describes LexicalRule.all pieceClass front
  only : ∀ other longer, longer <+: front ++ rest -> Describes LexicalRule.all other longer ->
    other = pieceClass ∧ longer.length ≤ front.length

/-- A front that is munched is the first piece, and what follows is cut as a text of its own. -/
theorem split_of_munches (munches : Munches pieceClass front rest) :
    split (front ++ rest) = ⟨pieceClass, front⟩ :: split rest := by
  obtain ⟨nonempty, described, only⟩ := munches
  obtain ⟨head, behind, rfl⟩ := List.exists_cons_of_ne_nil nonempty
  rw [List.cons_append, split]
  have isFront : head :: behind <+: head :: (behind ++ rest) := ⟨rest, rfl⟩
  obtain ⟨within, leads⟩ := measure_leads head (behind ++ rest)
  have longest := leads.longest isFront described
  obtain ⟨sameClass, notLonger⟩ := only _ _ longest.isFront longest.described
  have notShorter := longest.longest pieceClass _ isFront described
  simp only [List.length_cons, List.length_take_of_le within] at notLonger notShorter
  have sameLength : (measure head (behind ++ rest)).2 = behind.length := by omega
  simp only at sameClass
  simp only [sameClass, sameLength, List.take_left, List.drop_left]

/-- Only the rules that may begin like a text have to be looked at. -/
theorem munches_of_beginning (begins : charClass.contains head = true) {behind : List Char}
    (described : Describes LexicalRule.all pieceClass (head :: behind))
    (remaining : ∀ rule ∈ LexicalRule.all, rule.2.beginsApart charClass = true ∨
      ∀ longer, longer <+: head :: behind ++ rest -> rule.2.Matches longer ->
        rule.1 = pieceClass ∧ longer.length ≤ (head :: behind).length) :
    Munches pieceClass (head :: behind) rest where
  nonempty := List.cons_ne_nil head behind
  described := described
  only := by
    rintro other longer isFront ⟨pattern, listed, matched⟩
    rcases remaining _ listed with apart | decided
    · rcases List.prefix_cons_iff.1 isFront with rfl | ⟨later, rfl, _⟩
      · exact (LexicalRule.all_nonempty other ⟨pattern, listed, matched⟩).elim
      · exact (not_matches_of_beginsApart begins apart matched).elim
    · exact decided longer isFront matched

/-- Where one rule is left for a class of first characters and that rule is a run, a text of it is
munched up to a character that does not belong to it. -/
theorem munches_run (listed : (pieceClass, run first part) ∈ LexicalRule.all)
    (alone : ∀ rule ∈ LexicalRule.all, rule.2.beginsApart first = true ∨
      rule = (pieceClass, run first part))
    (described : (run first part).Matches front)
    (ended : ∀ next ∈ rest.head?, part.contains next = false) :
    Munches pieceClass front rest := by
  have isRun := described
  obtain ⟨head, behind, rfl, begins, _⟩ := matches_run_iff.1 described
  refine munches_of_beginning begins ⟨_, listed, isRun⟩ fun rule ruleListed => ?_
  rcases alone rule ruleListed with apart | rfl
  · exact .inl apart
  · exact .inr fun longer isFront goesOn => ⟨rfl, run_within isRun ended isFront goesOn⟩

end Piece

end KiwiFront
