import KiwiFront.Output.Rendering
import KiwiFront.Proofs.Text.Legible
import KiwiFront.Proofs.Text.OneLine
import KiwiFront.Proofs.Tree.Serialized

/-!
# Tokens in plain lines

Each token has a line of its own, which shows all of it but the place where it stops. The line is
made of legible parts, so that lines of tokens tell what they show, whatever the texts and the
positions are: a number may be wider than its column, and a text may look like the escapes in it.
-/

namespace KiwiFront

open Text

namespace Text

variable {lines others : List String}

/-- Lines one behind the other, each closed by a line feed. -/
def closeLines (lines : List String) : String :=
  String.join (lines.map (· ++ "\n"))

/-- Closed lines are the lines of the text that they make up, and nothing follows on the last. -/
theorem splitOn_closeLines (unbroken : ∀ line ∈ lines, OneLine line) :
    (closeLines lines).toList.splitOn '\n' = lines.map String.toList ++ [[]] := by
  induction lines with
  | nil => rfl
  | cons line rest inductionHypothesis =>
      obtain ⟨here, later⟩ := List.forall_mem_cons.1 unbroken
      have front : (closeLines (line :: rest)).toList =
          line.toList ++ '\n' :: (closeLines rest).toList := by
        simp [closeLines, String.toList_join]
      rw [front, List.splitOn_append_cons_self_of_not_mem here, inductionHypothesis later,
        List.map_cons, List.cons_append]

/-- Lines can be told from their text if they are one-line texts. -/
theorem closeLines_inj (unbroken : ∀ line ∈ lines, OneLine line)
    (unbrokenToo : ∀ line ∈ others, OneLine line) :
    closeLines lines = closeLines others ↔ lines = others := by
  constructor
  · intro same
    have split := splitOn_closeLines unbroken
    rw [same, splitOn_closeLines unbrokenToo] at split
    have toList_injective : Function.Injective String.toList :=
      fun _ _ same => String.toList_injective same
    exact (List.map_injective_iff.2 toList_injective (List.append_cancel_right split)).symm
  · exact congrArg closeLines

/-- Blanks behind a text break no line. -/
theorem oneLine_alignLeft (width : Nat) {text : String} (oneLine : OneLine text) :
    OneLine (alignLeft width text) :=
  oneLine.append (by simp [OneLine])

/-- Blanks in front of a text break no line. -/
theorem oneLine_alignRight (width : Nat) {text : String} (oneLine : OneLine text) :
    OneLine (alignRight width text) :=
  .append (by simp [OneLine]) oneLine

end Text

/-- The label of a kind is one word. -/
theorem TokenKind.blank_notMem_label (kind : TokenKind) : ' ' ∉ kind.label.toList := by
  cases kind <;> decide

namespace Token

/-- The parts of a line one behind the other: row, column, kind and text. -/
def writeParts (parts : Int × Int × TokenKind × String) : List Char :=
  (alignRight 3 (toString parts.1)).toList ++ [':'] ++
    ((alignLeft 3 (toString parts.2.1)).toList ++ [' '] ++
      ((alignLeft 12 parts.2.2.1.label).toList ++ [' '] ++ (quoted parts.2.2.2).toList))

/-- The parts of a token can be read off its line one after the other. -/
theorem legible_writeParts : Legible writeParts := by
  have blankless (value : Int) : ' ' ∉ (toString value).toList :=
    notMem_integer (fun _ => Nat.digitChar_ne ' ' rfl) (by decide) value
  have colonless (value : Int) : ':' ∉ (toString value).toList :=
    notMem_integer (fun _ => Nat.digitChar_ne ':' rfl) (by decide) value
  have row := legible_alignRight integer_injective blankless 3 (by decide) colonless
  have column := legible_alignLeft integer_injective blankless 3
  have kind := legible_alignLeft TokenKind.label_injective TokenKind.blank_notMem_label 12
  have whole := row.before (column.before (kind.before legible_quoted))
  exact fun _ _ _ _ same => whole _ _ _ _ same

/-- The line of a token is written out part by part. -/
theorem toList_display (token : Token) : token.display.toList =
    writeParts (token.start.row, token.start.column, token.kind, token.text) := by
  simp [display, writeParts, toString]

/-- The line of a token shows all of it but the place where it stops. -/
theorem display_eq_iff {token other : Token} : token.display = other.display ↔
    token.kind = other.kind ∧ token.text = other.text ∧ token.start = other.start := by
  constructor
  · intro same
    have parts := congrArg String.toList same
    rw [toList_display, toList_display] at parts
    obtain ⟨rows, columns, kinds, texts⟩ : _ ∧ _ ∧ _ ∧ _ := by
      simpa only [Prod.mk.injEq] using legible_writeParts.injective parts
    obtain ⟨kind, text, ⟨row, column⟩, stop⟩ := token
    exact ⟨kinds, texts, congrArg₂ Position.mk rows columns⟩
  · rintro ⟨kinds, texts, starts⟩
    rw [display, display, kinds, texts, starts]

/-- A token is written in one line, even a line break. -/
theorem oneLine_display (token : Token) : OneLine token.display := by
  have row : OneLine (alignRight 3 (toString token.start.row)) :=
    oneLine_alignRight 3 (oneLine_integer _)
  have column : OneLine (alignLeft 3 (toString token.start.column)) :=
    oneLine_alignLeft 3 (oneLine_integer _)
  have kind : OneLine (alignLeft 12 token.kind.label) :=
    oneLine_alignLeft 12 token.kind.oneLine_label
  have colon : OneLine ":" := by decide
  have blank : OneLine " " := by decide
  have place := (row.append colon).append column
  exact (((place.append blank).append kind).append blank).append (oneLine_quoted token.text)

end Token

/-- A listing closes the line of each token in turn. -/
theorem formatTokens_lines (tokens : List Token) :
    formatTokens .lines tokens = .ok (closeLines (tokens.map Token.display)) := by
  rw [formatTokens, closeLines, List.map_map]
  rfl

/-- Plain lines are one for each token, in order, and tell the tokens but for where they stop: the
same lines come from tokens of the same kinds with the same texts that start at the same places,
and from no others. -/
theorem formatTokens_tells (tokens : List Token) :
    ∃ output, formatTokens .lines tokens = .ok output ∧
      output.toList.splitOn '\n' = tokens.map (fun token => token.display.toList) ++ [[]] ∧
      ∀ others, formatTokens .lines others = .ok output ↔
        List.Forall₂ (fun token other => token.kind = other.kind ∧ token.text = other.text ∧
          token.start = other.start) tokens others := by
  have unbroken (listed : List Token) : ∀ line ∈ listed.map Token.display, OneLine line :=
    List.forall_mem_map.2 fun token _ => token.oneLine_display
  refine ⟨_, formatTokens_lines tokens, ?_, fun others => ?_⟩
  · rw [splitOn_closeLines (unbroken tokens), List.map_map]
    rfl
  · have sameDisplays : List.Forall₂ (fun token other => token.kind = other.kind ∧
        token.text = other.text ∧ token.start = other.start) tokens others ↔
        tokens.map Token.display = others.map Token.display := by
      simp only [← Token.display_eq_iff, ← List.forall₂_eq_eq_eq, List.forall₂_map_left_iff,
        List.forall₂_map_right_iff]
    rw [sameDisplays, formatTokens_lines, Except.ok.injEq,
      closeLines_inj (unbroken others) (unbroken tokens), eq_comm]

end KiwiFront
