import KiwiFront.Proofs.Lexer.Placement
import KiwiFront.Tree.Relocation
import Mathlib

/-!
# Line breaks

Nothing but a line break and a continuation reaches over a line feed. So a line feed behind
a text that it does not join is a piece of its own, the text before it is cut as if it stood
alone, and what follows is cut as a text of its own that begins some rows further down.
-/

namespace KiwiFront

namespace Pattern

/-- Whether a pattern describes no text with a character in it, as its classes tell. -/
def avoids (character : Char) : Pattern -> Bool
  | .never | .empty => true
  | .one charClass => !charClass.contains character
  | .sequence first second => first.avoids character && second.avoids character
  | .either first second => first.avoids character && second.avoids character
  | .many body => body.avoids character

/-- What a pattern avoids by its classes is in no text that it describes. -/
theorem not_mem_of_avoids {character : Char} {pattern : Pattern} {text : List Char}
    (avoided : pattern.avoids character = true) (described : pattern.Matches text) :
    character ∉ text := by
  induction described with
  | empty | stop => exact List.not_mem_nil
  | one belongs =>
      intro member
      rw [← List.mem_singleton.1 member] at belongs
      simp [avoids, belongs] at avoided
  | sequence _ _ firstHypothesis secondHypothesis =>
      simp only [avoids, Bool.and_eq_true] at avoided
      simp [firstHypothesis avoided.1, secondHypothesis avoided.2]
  | first _ inductionHypothesis =>
      simp only [avoids, Bool.and_eq_true] at avoided
      exact inductionHypothesis avoided.1
  | second _ inductionHypothesis =>
      simp only [avoids, Bool.and_eq_true] at avoided
      exact inductionHypothesis avoided.2
  | more _ _ bodyHypothesis restHypothesis =>
      simp [bodyHypothesis avoided, restHypothesis avoided]

end Pattern

/-- A line feed behind a text joins it when the text ends in a backslash or a carriage
return. -/
def JoinsLineFeed (text : List Char) : Prop :=
  text.getLast? = some '\\' ∨ text.getLast? = some '\r'

instance (text : List Char) : Decidable (JoinsLineFeed text) :=
  inferInstanceAs (Decidable (_ ∨ _))

namespace LexicalRule

open LongestMatch Pattern

/-- A line continuation is a backslash with a line end behind it. -/
theorem continuation_matches {text : List Char} (described : continuation.Matches text) :
    text = ['\\', '\n'] ∨ text = ['\\', '\r', '\n'] := by
  obtain ⟨_, right, rfl, isBackslash, isBreak⟩ := matches_sequence_iff.1 described
  rw [matches_literal_iff.1 isBackslash]
  rcases lineBreak_matches_iff.1 isBreak with rfl | rfl
  · exact .inl rfl
  · exact .inr rfl

/-- Only line breaks and continuations reach over a line feed. -/
theorem all_avoid_lineFeed : ∀ rule ∈ all,
    rule.2.avoids '\n' = true ∨ rule.2 = lineBreak ∨ rule.2 = continuation := by decide

/-- No lexical rule makes an end marker. -/
theorem all_unmarked : ∀ rule ∈ all, rule.1 ≠ .token .endMarker := by decide

/-- The recovery rules stop before a line feed. -/
theorem recovery_avoids_lineFeed : ∀ rule ∈ recovery, rule.2.avoids '\n' = true := by decide

/-- A rule describes a line feed only at the end of a text, and nothing before it but what
the line feed joins. -/
theorem before_lineFeed {pieceClass : PieceClass} {before after : List Char}
    (described : Describes all pieceClass (before ++ '\n' :: after)) :
    before = [] ∨ JoinsLineFeed before := by
  obtain ⟨pattern, listed, matched⟩ := described
  -- The two rules that do not avoid line feeds describe four texts between them.
  have ends : before ++ '\n' :: after ∈
      [['\n'], ['\r', '\n'], ['\\', '\n'], ['\\', '\r', '\n']] := by
    rcases all_avoid_lineFeed _ listed with avoided | isBreak | isContinuation
    · exact absurd (by simp) (not_mem_of_avoids avoided matched)
    · simp only at isBreak
      rw [isBreak] at matched
      rcases lineBreak_matches_iff.1 matched with same | same <;> simp [same]
    · simp only at isContinuation
      rw [isContinuation] at matched
      rcases continuation_matches matched with same | same <;> simp [same]
  match before with
  | [] => exact .inl rfl
  | [only] =>
      have isOnly : only = '\r' ∧ after = [] ∨ only = '\\' ∧ after = [] := by simpa using ends
      rcases isOnly with ⟨rfl, _⟩ | ⟨rfl, _⟩
      · exact .inr (.inr rfl)
      · exact .inr (.inl rfl)
  | [first, last] =>
      have isLast : first = '\\' ∧ last = '\r' ∧ after = [] := by simpa using ends
      exact .inr (.inr (by simp [isLast.2.1]))
  | _ :: _ :: _ :: _ => simp at ends

/-- A text that does not join the line feed behind it goes into no piece together with it. -/
theorem all_apart {text : List Char} (nonempty : text ≠ []) (apart : ¬ JoinsLineFeed text)
    (pieceClass : PieceClass) (after : List Char) :
    ¬ Describes all pieceClass (text ++ '\n' :: after) := by
  intro described
  rcases before_lineFeed described with isNil | joins
  · exact nonempty isNil
  · exact apart joins

/-- Unrecognized text never goes on behind a line feed. -/
theorem recovery_apart (text : List Char) (pieceClass : PieceClass) (after : List Char) :
    ¬ Describes recovery pieceClass (text ++ '\n' :: after) := by
  rintro ⟨pattern, listed, matched⟩
  exact not_mem_of_avoids (recovery_avoids_lineFeed _ listed) matched (by simp)

end LexicalRule

namespace LongestMatch

variable {Label : Type} {rules : List (Label × Pattern)} {text later : List Char}

/-- Rules that describe nothing over a line feed keep to what stands before it. -/
theorem front_within (apart : ∀ label after, ¬ Describes rules label (text ++ '\n' :: after))
    {label : Label} {front : List Char} (isFront : front <+: text ++ '\n' :: later)
    (described : Describes rules label front) : front.length ≤ text.length := by
  by_contra longer
  have reaches : text <+: front :=
    List.prefix_of_prefix_length_le (List.prefix_append _ _) isFront (by omega)
  obtain ⟨more, rfl⟩ := reaches
  cases more with
  | nil => simp at longer
  | cons feed after =>
      have behind := (List.prefix_append_right_inj text).1 isFront
      obtain ⟨rfl, _⟩ := List.cons_prefix_cons.1 behind
      exact apart label after described

/-- What no described front reaches does not matter for a longest match. -/
theorem run?_append
    (within : ∀ label front, front <+: text ++ later -> Describes rules label front ->
      front.length ≤ text.length) :
    run? rules (text ++ later) = run? rules text := by
  induction text generalizing rules with
  | nil =>
      cases later with
      | nil => rfl
      | cons character rest =>
          rw [List.nil_append, run?, run?]
          have nothing : (if (advance character rules).isEmpty then none
              else run? (advance character rules) rest) = none := by
            split
            · rfl
            · have answered := run?_answers (advance character rules) rest
              cases found : run? (advance character rules) rest with
              | none => rfl
              | some measured =>
                  -- A match that goes on would reach beyond the text.
                  rw [found] at answered
                  have longest := answered.2.cons
                  exact absurd (within _ _ longest.isFront longest.described) (by simp)
          simp only [nothing]
  | cons character rest inductionHypothesis =>
      have same : run? (advance character rules) (rest ++ later) =
          run? (advance character rules) rest := by
        apply inductionHypothesis
        intro label front isFront described
        have behind := within label (character :: front)
          (List.cons_prefix_cons.2 ⟨rfl, isFront⟩) (describes_advance_iff.1 described)
        exact Nat.le_of_succ_le_succ behind
      rw [List.cons_append, run?, run?, same]

/-- A line feed that rules do not reach over ends every longest match. -/
theorem of?_append {character : Char}
    (apart : ∀ label after, ¬ Describes rules label (character :: text ++ '\n' :: after)) :
    of? rules character (text ++ '\n' :: later) = of? rules character text := by
  apply run?_append
  intro label front isFront described
  have isWhole : character :: front <+: character :: text ++ '\n' :: later :=
    List.cons_prefix_cons.2 ⟨rfl, isFront⟩
  have within := front_within apart isWhole (describes_advance_iff.1 described)
  exact Nat.le_of_succ_le_succ within

end LongestMatch

namespace Piece

/-- The piece at a character does not depend on what follows behind a line feed that it cannot join.
-/
theorem measure_append {character : Char} {rest later : List Char}
    (apart : ¬ JoinsLineFeed (character :: rest)) :
    measure character (rest ++ '\n' :: later) = measure character rest := by
  have sameRules : LongestMatch.of? LexicalRule.all character (rest ++ '\n' :: later) =
      LongestMatch.of? LexicalRule.all character rest :=
    LongestMatch.of?_append (LexicalRule.all_apart (List.cons_ne_nil character rest) apart)
  have sameRecovery : LongestMatch.of? LexicalRule.recovery character (rest ++ '\n' :: later) =
      LongestMatch.of? LexicalRule.recovery character rest :=
    LongestMatch.of?_append (LexicalRule.recovery_apart (character :: rest))
  rw [measure, measure, sameRules, sameRecovery]

/-- A line feed is a line break by itself, whatever follows. -/
theorem measure_lineFeed (rest : List Char) : measure '\n' rest = (.lineBreak, 0) := by
  have advanced : LongestMatch.advance '\n' LexicalRule.all = [(.lineBreak, .empty)] := by decide
  have found : LongestMatch.of? LexicalRule.all '\n' rest = some (.lineBreak, 0) := by
    rw [LongestMatch.of?, advanced]
    cases rest <;> rfl
  rw [measure, found]

/-- Whether a line feed joins what is left of a text does not depend on what is cut off. -/
theorem joinsLineFeed_of_drop {text : List Char} {count : Nat}
    (joins : JoinsLineFeed (text.drop count)) : JoinsLineFeed text := by
  unfold JoinsLineFeed at joins ⊢
  rw [List.getLast?_drop] at joins
  split at joins
  · simp at joins
  · exact joins

/-- A text is cut at a line feed that does not join what stands before it. -/
theorem split_append {text later : List Char} (apart : ¬ JoinsLineFeed text) :
    split (text ++ '\n' :: later) = split text ++ ⟨.lineBreak, ['\n']⟩ :: split later := by
  fun_induction split text with
  | case1 =>
      rw [List.nil_append, List.nil_append, split, measure_lineFeed]
      rfl
  | case2 character rest measured inductionHypothesis =>
      have within : measured.2 ≤ rest.length := (measure_leads character rest).1
      have behind : ¬ JoinsLineFeed (rest.drop measured.2) := by
        intro joins
        have cut : JoinsLineFeed ((character :: rest).drop (measured.2 + 1)) := joins
        exact apart (joinsLineFeed_of_drop cut)
      rw [List.cons_append, split, measure_append apart]
      change ⟨measured.1, character :: (rest ++ '\n' :: later).take measured.2⟩ ::
        split ((rest ++ '\n' :: later).drop measured.2) = _
      rw [List.take_append_of_le_length within, List.drop_append_of_le_length within,
        inductionHypothesis behind]
      rfl

end Piece

namespace Position

/-- A position some rows further down. -/
def down (rows : Int) (position : Position) : Position :=
  ⟨position.row + rows, position.column⟩

/-- Moving down by some rows does not change what a character does to a position. -/
theorem advance_down (rows : Int) (position : Position) (character : Char) :
    (position.down rows).advance character = (position.advance character).down rows := by
  unfold advance
  split
  · simp only [down, mk.injEq, and_true]
    omega
  · rfl

/-- Moving down by some rows does not change what a text does to a position, by induction on it. -/
theorem advanceBy_down (rows : Int) (position : Position) (text : List Char) :
    (position.down rows).advanceBy text = (position.advanceBy text).down rows := by
  induction text generalizing position with
  | nil => rfl
  | cons character rest inductionHypothesis =>
      rw [advanceBy_cons, advanceBy_cons, advance_down, inductionHypothesis]

end Position

namespace Scan

/-- Pieces that start some rows further down become the same tokens, as many rows down. -/
theorem place_down (rows : Int) (position : Position) (hasContent : Bool) (pieces : List Piece) :
    place (position.down rows) hasContent pieces =
      (place position hasContent pieces).map (Token.relocate (Position.down rows)) := by
  induction pieces generalizing position hasContent with
  | nil => cases hasContent <;> rfl
  | cons piece rest inductionHypothesis =>
      have moved : tokenOf? (position.down rows) hasContent piece =
          (tokenOf? position hasContent piece).map (Token.relocate (Position.down rows)) := by
        unfold tokenOf?
        rw [Position.advanceBy_down]
        cases piece.pieceClass <;> rfl
      rw [place_cons, place_cons, moved, Position.advanceBy_down, inductionHypothesis]
      simp [Option.toList_map]

/-- The token of a piece is no end marker and has a text. -/
theorem tokenOf?_proper {position : Position} {hasContent : Bool} {piece : Piece} {token : Token}
    (nonempty : piece.characters ≠ []) (proper : piece.pieceClass ≠ .token .endMarker)
    (becomes : tokenOf? position hasContent piece = some token) :
    token.kind ≠ .endMarker ∧ token.text ≠ "" := by
  obtain ⟨pieceClass, characters⟩ := piece
  have noText : Piece.text ⟨pieceClass, characters⟩ ≠ "" := fun isEmpty =>
    nonempty (by simpa [Piece.text] using congrArg String.toList isEmpty)
  cases pieceClass with
  | skipped => cases becomes
  | lineBreak =>
      cases becomes
      refine ⟨?_, noText⟩
      cases hasContent <;> simp [lineBreakToken]
  | token kind =>
      cases becomes
      exact ⟨fun isMarker => proper (congrArg _ isMarker), noText⟩
  | unrecognized =>
      cases becomes
      exact ⟨by simp, noText⟩

/-- Every placed token has a text, and none is an end marker. -/
theorem placed_proper {text : List Char} {pieces : List Piece}
    (munched : Piece.Munched text pieces) (position : Position) (hasContent : Bool) :
    ∀ token ∈ placed position hasContent pieces, token.kind ≠ .endMarker ∧ token.text ≠ "" := by
  have proper : ∀ piece ∈ pieces, piece.pieceClass ≠ .token .endMarker := by
    intro piece member isMarker
    obtain ⟨pattern, listed, _⟩ := munched.described piece member (by simp [isMarker])
    exact LexicalRule.all_unmarked _ listed isMarker
  have nonempty := munched.nonempty
  clear munched
  induction pieces generalizing position hasContent with
  | nil => exact fun _ member => (List.not_mem_nil member).elim
  | cons piece rest inductionHypothesis =>
      rw [List.forall_mem_cons] at proper nonempty
      intro token member
      rcases List.mem_append.1 member with here | later
      · exact tokenOf?_proper nonempty.1 proper.1 (Option.mem_toList.1 here)
      · exact inductionHypothesis _ _ proper.2 nonempty.2 token later

end Scan

/-- What is scanned of a text goes on behind a line feed as if the rest stood alone. -/
theorem scan_apart (before after : String) (apart : ¬ JoinsLineFeed before.toList) :
    let stop := Position.first.advanceBy before.toList
    ∃ front closing,
      scan before = front ++ closing ++ [⟨.endMarker, "", stop, stop⟩] ∧
      (closing = [] ∨ closing = [⟨.newline, "", stop, stop⟩]) ∧
      (∀ token ∈ front, token.kind ≠ .endMarker ∧ token.text ≠ "") ∧
      scan (before ++ "\n" ++ after) =
        front ++
          ⟨if closing = [] then .blankNewline else .newline, "\n", stop,
            ⟨stop.row, stop.column + 1⟩⟩ ::
          (scan after).tail.map
            (Token.relocate (Position.down (1 + before.toList.count '\n'))) := by
  intro stop
  have munched := Piece.split_munched before.toList
  let pieces := Piece.split before.toList
  let hasContent := Scan.contentAfter false pieces
  refine ⟨Scan.encodingToken :: Scan.placed .first false pieces, Scan.closing hasContent stop,
    Scan.scan_eq before, ?_, ?_, ?_⟩
  · unfold Scan.closing
    split
    · exact .inr rfl
    · exact .inl rfl
  · exact List.forall_mem_cons.2 ⟨⟨nofun, by decide⟩, Scan.placed_proper munched _ _⟩
  · have whole : (before ++ "\n" ++ after).toList =
        before.toList ++ '\n' :: after.toList := by simp
    have behind : stop.advanceBy ['\n'] =
        Position.first.down (1 + before.toList.count '\n') := by
      have row : stop.row = 1 + before.toList.count '\n' := Position.advanceBy_row _ _
      simp [Position.advance, Position.down, Position.first, row]
      omega
    have lineFeed : Scan.tokenOf? stop hasContent ⟨.lineBreak, ['\n']⟩ =
        some ⟨if Scan.closing hasContent stop = [] then .blankNewline else .newline, "\n", stop,
          ⟨stop.row, stop.column + 1⟩⟩ := by
      cases hasContent <;> rfl
    rw [Scan.scan_eq_place, whole, Piece.split_append apart, Scan.place_append, munched.flatten,
      Scan.place_cons]
    change Scan.encodingToken :: (_ ++ ((Scan.tokenOf? stop hasContent _).toList ++
      Scan.place (stop.advanceBy ['\n']) false _)) = _
    rw [lineFeed, behind, Scan.place_down, Scan.scan_eq_place after]
    rfl

/-- Rows and columns that are counted further down are counted further up. -/
theorem Counting.Reaches.of_down {counting : Counting} {rows : Int} {position : Position}
    (reaches : counting.Reaches (position.down rows)) (further : 0 ≤ rows) :
    counting.Reaches position := by
  cases counting with
  | endless => exact trivial
  | int32 =>
      have down : position.row + rows ≤ Int32.maxValue.toInt := reaches.1
      exact ⟨by omega, reaches.2⟩

end KiwiFront
