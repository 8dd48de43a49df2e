import KiwiFront.Lexer.Piece
import KiwiFront.Proofs.Lexer.Derivatives

/-!
# Maximal munch

What the rules of the language describe is said by `Pattern.Matches` alone. A longest match
finds the longest front of a text that some rule describes, and the pieces of a text are
what is munched from it in that way, one after the other. Text is unrecognized only where no
rule describes any front of what is left.
-/

namespace KiwiFront

namespace LongestMatch

variable {Label : Type} {rules : List (Label × Pattern)} {label : Label} {character : Char}
  {front text : List Char}

/-- Some rule with a label describes a text. -/
def Describes (rules : List (Label × Pattern)) (label : Label) (text : List Char) : Prop :=
  ∃ pattern, (label, pattern) ∈ rules ∧ pattern.Matches text

/-- A front of a text is described, and no longer one is. -/
structure Longest (rules : List (Label × Pattern)) (label : Label)
    (front text : List Char) : Prop where
  isFront : front <+: text
  described : Describes rules label front
  longest : ∀ other longer, longer <+: text -> Describes rules other longer ->
    longer.length ≤ front.length

/-- No front of a text is described. -/
def Unmatched (rules : List (Label × Pattern)) (text : List Char) : Prop :=
  ∀ label front, front <+: text -> ¬ Describes rules label front

/-- After a character, the rules describe what may follow it. -/
theorem describes_advance_iff :
    Describes (advance character rules) label text ↔
      Describes rules label (character :: text) := by
  constructor
  · rintro ⟨residual, member, described⟩
    obtain ⟨⟨other, pattern⟩, listed, isResidual⟩ := List.mem_filterMap.1 member
    have derived : other = label ∧ pattern.derivative character = residual := by
      grind
    obtain ⟨rfl, rfl⟩ := derived
    exact ⟨pattern, listed, (Pattern.matches_derivative_iff pattern).1 described⟩
  · rintro ⟨pattern, listed, described⟩
    have residual := (Pattern.matches_derivative_iff pattern).2 described
    refine ⟨pattern.derivative character, List.mem_filterMap.2 ⟨(label, pattern), listed, ?_⟩,
      residual⟩
    cases derived : pattern.derivative character with
    | never =>
        rw [derived] at residual
        exact (Pattern.not_matches_never residual).elim
    | _ => simp only [derived]

/-- A label is accepted here only if one of its patterns matches the empty text. -/
theorem describes_of_accepted (accepted : accepted? rules = some label) :
    Describes rules label [] := by
  obtain ⟨rule, found, rfl⟩ := Option.map_eq_some_iff.1 accepted
  have empty : rule.2.acceptsEmpty = true := by simpa using List.find?_some found
  exact ⟨rule.2, List.mem_of_find?_eq_some found, (Pattern.acceptsEmpty_iff rule.2).1 empty⟩

/-- Where no label is accepted, no pattern matches the empty text. -/
theorem not_describes_of_accepted (accepted : accepted? rules = none) :
    ¬ Describes rules label [] := by
  rintro ⟨pattern, listed, described⟩
  have absent := List.find?_eq_none.1 (Option.map_eq_none_iff.1 accepted) _ listed
  exact absent ((Pattern.acceptsEmpty_iff pattern).2 described)

/-- A front behind a character that is longest there is longest together with it. -/
theorem Longest.cons (longest : Longest (advance character rules) label front text) :
    Longest rules label (character :: front) (character :: text) where
  isFront := List.cons_prefix_cons.2 ⟨rfl, longest.isFront⟩
  described := describes_advance_iff.1 longest.described
  longest := by
    intro other longer isFront described
    rcases List.prefix_cons_iff.1 isFront with rfl | ⟨rest, rfl, behind⟩
    · exact Nat.zero_le _
    · exact Nat.succ_le_succ (longest.longest other rest behind (describes_advance_iff.2 described))

/-- What no derivative matches, no pattern matches with the character in front. -/
theorem Unmatched.cons (nonempty : ∀ label, ¬ Describes rules label [])
    (unmatched : Unmatched (advance character rules) text) :
    Unmatched rules (character :: text) := by
  intro label front isFront described
  rcases List.prefix_cons_iff.1 isFront with rfl | ⟨rest, rfl, behind⟩
  · exact nonempty label described
  · exact unmatched label rest behind (describes_advance_iff.2 described)

/-- What a longest match has to come to. -/
def Answers (rules : List (Label × Pattern)) (text : List Char) : Option (Label × Nat) -> Prop
  | some (label, length) => length ≤ text.length ∧ Longest rules label (text.take length) text
  | none => Unmatched rules text

/-- Where nothing longer is described, the rules that describe the empty text decide. -/
theorem answers_accepted
    (onlyEmpty : ∀ label front, front <+: text -> Describes rules label front -> front = []) :
    Answers rules text ((accepted? rules).map (·, 0)) := by
  cases accepted : accepted? rules with
  | none =>
      intro label front isFront described
      rw [onlyEmpty label front isFront described] at described
      exact not_describes_of_accepted accepted described
  | some label =>
      refine ⟨Nat.zero_le _, List.nil_prefix, describes_of_accepted accepted, ?_⟩
      intro other longer isFront described
      rw [onlyEmpty other longer isFront described]
      exact Nat.zero_le _

/-- The scan over derivatives answers with the longest match there is, by induction on the text. -/
theorem run?_answers (rules : List (Label × Pattern)) (text : List Char) :
    Answers rules text (run? rules text) := by
  induction text generalizing rules with
  | nil => exact answers_accepted fun _ _ isFront _ => List.prefix_nil.1 isFront
  | cons character rest inductionHypothesis =>
      have later : Answers (advance character rules) rest
          (if (advance character rules).isEmpty then none
            else run? (advance character rules) rest) := by
        split
        · rename_i dead
          rintro label front _ ⟨pattern, listed, _⟩
          rw [List.isEmpty_iff.1 dead] at listed
          exact List.not_mem_nil listed
        · exact inductionHypothesis _
      unfold run?
      simp only
      generalize (if (advance character rules).isEmpty then none
        else run? (advance character rules) rest) = longer at later ⊢
      cases longer with
      | none =>
          apply answers_accepted
          intro label front isFront described
          rcases List.prefix_cons_iff.1 isFront with rfl | ⟨behind, rfl, isBehind⟩
          · rfl
          · exact (later label behind isBehind (describes_advance_iff.2 described)).elim
      | some found => exact ⟨Nat.succ_le_succ later.1, later.2.cons⟩

/-- A match of a character and what follows it is longest. -/
theorem of?_longest {length : Nat} (found : of? rules character text = some (label, length)) :
    length ≤ text.length ∧
      Longest rules label (character :: text.take length) (character :: text) := by
  have answered := run?_answers (advance character rules) text
  rw [show run? (advance character rules) text = some (label, length) from found] at answered
  exact ⟨answered.1, answered.2.cons⟩

/-- A search that finds nothing shows that no rule matches any beginning of the text. -/
theorem of?_unmatched (nonempty : ∀ label, ¬ Describes rules label [])
    (missing : of? rules character text = none) : Unmatched rules (character :: text) := by
  have answered := run?_answers (advance character rules) text
  rw [show run? (advance character rules) text = none from missing] at answered
  exact answered.cons nonempty

/-- Rules that do not accept the empty text do not describe it. -/
theorem not_describes_nil (needed : ∀ rule ∈ rules, rule.2.acceptsEmpty = false)
    (label : Label) : ¬ Describes rules label [] := by
  rintro ⟨pattern, listed, described⟩
  have accepts := (Pattern.acceptsEmpty_iff pattern).2 described
  rw [needed _ listed] at accepts
  cases accepts

end LongestMatch

namespace Piece

open LongestMatch

/-- A piece is what is munched from the front of a text. -/
inductive Leads : Piece -> List Char -> Prop where
  /-- The rules of the language describe it, and nothing longer. -/
  | recognized {pieceClass front text} (known : pieceClass ≠ .unrecognized)
      (longest : Longest LexicalRule.all pieceClass front text) : Leads ⟨pieceClass, front⟩ text
  /-- An open string reaches as far as its contents do. -/
  | openString {front text} (unmatched : Unmatched LexicalRule.all text)
      (longest : Longest LexicalRule.recovery .unrecognized front text) :
      Leads ⟨.unrecognized, front⟩ text
  /-- Any other character stands alone. -/
  | alone {character rest} (unmatched : Unmatched LexicalRule.all (character :: rest))
      (closed : Unmatched LexicalRule.recovery (character :: rest)) :
      Leads ⟨.unrecognized, [character]⟩ (character :: rest)

/-- Pieces are munched from a text, each from what the ones before it leave. -/
inductive Munched : List Char -> List Piece -> Prop where
  | nil : Munched [] []
  | cons {piece rest pieces} (nonempty : piece.characters ≠ [])
      (leads : Leads piece (piece.characters ++ rest)) (later : Munched rest pieces) :
      Munched (piece.characters ++ rest) (piece :: pieces)

end Piece

namespace LexicalRule

open LongestMatch Pattern

/-- No lexical rule matches the empty text, so every piece consumes a character. -/
theorem all_nonempty : ∀ pieceClass, ¬ Describes all pieceClass [] :=
  not_describes_nil (by decide)

/-- The recovery rules do not match the empty text either. -/
theorem recovery_nonempty : ∀ pieceClass, ¬ Describes recovery pieceClass [] :=
  not_describes_nil (by decide)

/-- The ordinary rules never call a piece unrecognized. -/
theorem all_known : ∀ rule ∈ all, rule.1 ≠ .unrecognized := by decide

/-- Only blanks and line continuations are skipped. -/
theorem skipped_rules : ∀ rule ∈ all, rule.1 = .skipped ->
    rule.2 = blank ∨ rule.2 = continuation := by decide

/-- Only the line break pattern makes a line break. -/
theorem lineBreak_rules : ∀ rule ∈ all, rule.1 = .lineBreak -> rule.2 = lineBreak := by decide

/-- The recovery rules call every piece unrecognized. -/
theorem recovery_unrecognized : ∀ rule ∈ recovery, rule.1 = .unrecognized := by decide

/-- A line break is a line feed, with or without a carriage return before it. -/
theorem lineBreak_matches_iff {text : List Char} :
    lineBreak.Matches text ↔ text = ['\n'] ∨ text = ['\r', '\n'] := by
  simp only [lineBreak, Pattern.optional, matches_sequence_iff, matches_either_iff,
    matches_literal_iff, matches_empty_iff]
  constructor
  · rintro ⟨_, _, rfl, rfl | rfl, rfl⟩
    · exact .inr rfl
    · exact .inl rfl
  · rintro (rfl | rfl)
    · exact ⟨[], ['\n'], rfl, .inr rfl, rfl⟩
    · exact ⟨['\r'], ['\n'], rfl, .inl rfl, rfl⟩

end LexicalRule

namespace Piece

open LongestMatch

/-- The piece that is measured at a character is a beginning of the text from that character on. -/
theorem measure_leads (character : Char) (rest : List Char) :
    let measured := measure character rest
    measured.2 ≤ rest.length ∧
      Leads ⟨measured.1, character :: rest.take measured.2⟩ (character :: rest) := by
  unfold measure
  cases found : of? LexicalRule.all character rest with
  | some measured =>
      obtain ⟨within, longest⟩ := of?_longest found
      obtain ⟨pattern, listed, _⟩ := longest.described
      exact ⟨within, .recognized (LexicalRule.all_known _ listed) longest⟩
  | none =>
      have unmatched := of?_unmatched LexicalRule.all_nonempty found
      cases reached : of? LexicalRule.recovery character rest with
      | some measured =>
          obtain ⟨within, longest⟩ := of?_longest reached
          obtain ⟨pattern, listed, _⟩ := longest.described
          have isUnrecognized := LexicalRule.recovery_unrecognized _ listed
          simp only at isUnrecognized ⊢
          rw [isUnrecognized] at longest ⊢
          exact ⟨within, .openString unmatched longest⟩
      | none =>
          have closed := of?_unmatched LexicalRule.recovery_nonempty reached
          exact ⟨Nat.zero_le _, .alone unmatched closed⟩

/-- The pieces of a text are munched from it. -/
theorem split_munched (text : List Char) : Munched text (split text) := by
  fun_induction split text with
  | case1 => exact .nil
  | case2 character rest measured inductionHypothesis =>
      have leads := (measure_leads character rest).2
      have whole : character :: rest =
          (character :: rest.take measured.2) ++ rest.drop measured.2 := by simp
      rw [whole] at leads ⊢
      exact .cons (List.cons_ne_nil _ _) leads inductionHypothesis

/-- The text of a line break ends in its only line feed. -/
theorem Leads.lineBreak {piece : Piece} {text : List Char} (leads : piece.Leads text)
    (isBreak : piece.pieceClass = .lineBreak) :
    piece.characters = ['\n'] ∨ piece.characters = ['\r', '\n'] := by
  cases leads with
  | recognized _ longest =>
      obtain ⟨pattern, listed, described⟩ := longest.described
      have isRule : pattern = LexicalRule.lineBreak := LexicalRule.lineBreak_rules _ listed isBreak
      rw [isRule] at described
      exact LexicalRule.lineBreak_matches_iff.1 described
  | openString | alone => cases isBreak

namespace Munched

variable {text : List Char} {pieces : List Piece}

/-- Nothing of a text is lost. -/
theorem flatten (munched : Munched text pieces) : pieces.flatMap Piece.characters = text := by
  induction munched with
  | nil => rfl
  | cons _ _ _ inductionHypothesis => rw [List.flatMap_cons, inductionHypothesis]

/-- Every piece of a munched text holds a character. -/
theorem nonempty (munched : Munched text pieces) : ∀ piece ∈ pieces, piece.characters ≠ [] := by
  induction munched with
  | nil => exact fun _ member => (List.not_mem_nil member).elim
  | cons nonempty _ _ inductionHypothesis =>
      exact List.forall_mem_cons.2 ⟨nonempty, inductionHypothesis⟩

/-- A recognized piece is described by a rule of its class. -/
theorem described (munched : Munched text pieces) :
    ∀ piece ∈ pieces, piece.pieceClass ≠ .unrecognized ->
      Describes LexicalRule.all piece.pieceClass piece.characters := by
  induction munched with
  | nil => exact fun _ member => (List.not_mem_nil member).elim
  | cons _ leads _ inductionHypothesis =>
      refine List.forall_mem_cons.2 ⟨fun known => ?_, inductionHypothesis⟩
      cases leads with
      | recognized _ longest => exact longest.described
      | openString | alone => exact (known rfl).elim

/-- Blanks and continued line breaks are skipped, and nothing else is. -/
theorem skipped (munched : Munched text pieces) :
    ∀ piece ∈ pieces, piece.pieceClass = .skipped ->
      LexicalRule.blank.Matches piece.characters ∨
        LexicalRule.continuation.Matches piece.characters := by
  intro piece member isSkipped
  obtain ⟨pattern, listed, matched⟩ := munched.described piece member (by simp [isSkipped])
  rw [isSkipped] at listed
  rcases LexicalRule.skipped_rules _ listed rfl with rfl | rfl
  · exact .inl matched
  · exact .inr matched

end Munched

end Piece

end KiwiFront
