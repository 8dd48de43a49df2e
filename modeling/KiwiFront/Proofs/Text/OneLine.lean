import KiwiFront.Proofs.Text.Digits
import KiwiFront.Tree.Drawing
import KiwiFront.Tree.Elements

/-!
# Texts on one line

Numbers, places and quoted texts stand on one line, whatever is quoted. Names joined by dots and
labels that are cut do if what they are made of does.
-/

namespace KiwiFront

namespace Text

variable {left right : String}

/-- A concatenation holds a line feed only where one of its parts does. -/
theorem oneLine_append : OneLine (left ++ right) ↔ OneLine left ∧ OneLine right := by
  rw [OneLine, String.toList_append, List.mem_append, not_or]
  rfl

/-- Two one-line texts make a one-line text. -/
theorem OneLine.append (first : OneLine left) (second : OneLine right) : OneLine (left ++ right) :=
  oneLine_append.2 ⟨first, second⟩

/-- Any number of one-line texts make a one-line text. -/
theorem oneLine_join {texts : List String} (each : ∀ text ∈ texts, OneLine text) :
    OneLine (String.join texts) := by
  intro member
  rw [String.toList_join] at member
  obtain ⟨text, among, within⟩ := List.mem_flatMap.1 member
  exact each text among within

/-- No digit is a line feed, in whatever base it is written. -/
theorem lineFeed_noDigit (digit : Nat) : digit.digitChar ≠ '\n' :=
  Nat.digitChar_ne '\n' rfl

/-- A natural number prints on one line. -/
theorem oneLine_natural (value : Nat) : OneLine (toString value) :=
  notMem_natural lineFeed_noDigit value

/-- An integer prints on one line, with its sign or without. -/
theorem oneLine_integer (value : Int) : OneLine (toString value) :=
  notMem_integer lineFeed_noDigit (by decide) value

/-- A line feed is quoted as an escape, and no other character becomes one. -/
theorem lineFeed_notMem_quoteCharacter (character : Char) : '\n' ∉ quoteCharacter character := by
  unfold quoteCharacter
  split
  case h_7 _ _ _ _ _ _ notFeed =>
    split
    · exact fun member => notFeed (List.mem_singleton.1 member).symm
    · rw [List.mem_append, List.mem_append, not_or, not_or]
      exact ⟨⟨by decide, notMem_toDigits lineFeed_noDigit (by decide) _⟩, by decide⟩
  all_goals decide

/-- Quoting escapes line feeds, so a quoted text stays on one line whatever it holds. -/
theorem oneLine_quoted (text : String) : OneLine (quoted text) := by
  rw [OneLine, quoted, String.toList_ofList, quoteCharacters, List.mem_append, List.mem_cons,
    List.mem_flatMap, not_or, not_or]
  refine ⟨⟨by decide, ?_⟩, by decide⟩
  rintro ⟨character, _, member⟩
  exact lineFeed_notMem_quoteCharacter character member

/-- Texts set apart by a one-line separator make a one-line text. -/
theorem oneLine_intercalate {separator : String} {texts : List String}
    (between : OneLine separator) (each : ∀ text ∈ texts, OneLine text) :
    OneLine (String.intercalate separator texts) := by
  induction texts with
  | nil => exact List.not_mem_nil
  | cons first rest inductionHypothesis =>
      obtain ⟨here, behind⟩ := List.forall_mem_cons.1 each
      cases rest with
      | nil =>
          rw [String.intercalate_singleton]
          exact here
      | cons second others =>
          rw [String.intercalate_cons_cons]
          exact (here.append between).append (inductionHypothesis behind)

end Text

open Text (OneLine oneLine_integer)

/-- A position displays on one line. -/
theorem Position.oneLine_display (position : Position) : OneLine position.display :=
  ((oneLine_integer position.row).append (by decide)).append (oneLine_integer position.column)

/-- A span displays on one line. -/
theorem Span.oneLine_display (span : Span) : OneLine span.display :=
  (span.start.oneLine_display.append (by decide)).append span.stop.oneLine_display

/-- Every token label is one line, as the finitely many kinds show. -/
theorem TokenKind.oneLine_label (kind : TokenKind) : OneLine kind.label := by
  cases kind <;> decide

/-- A token's label and quoted text stay on one line, even for a line break token. -/
theorem Token.oneLine_label (token : Token) :
    OneLine (token.kind.label ++ " " ++ Text.quoted token.text) :=
  (token.kind.oneLine_label.append (by decide)).append (Text.oneLine_quoted token.text)

/-- A dotted name prints on one line when its segments do. -/
theorem Identifier.oneLine_dotted {identifier : Identifier}
    (plain : ∀ token ∈ identifier.segments, OneLine token.text) : OneLine identifier.dotted :=
  Text.oneLine_intercalate (by decide) (List.forall_mem_map.2 plain)

/-- A qualified name prints on one line when its segments do, by induction on the qualifier. -/
theorem UserType.oneLine_dotted {type : UserType}
    (plain : ∀ token ∈ type.segments, OneLine token.text) : OneLine type.dotted := by
  induction type with
  | simple identifier span => exact plain identifier (List.mem_singleton.2 rfl)
  | qualified qualifier identifier span inductionHypothesis =>
      obtain ⟨front, last⟩ := List.forall_mem_append.1 plain
      exact ((inductionHypothesis front).append (by decide)).append
        (last identifier (List.mem_singleton.2 rfl))

namespace Drawing

/-- Cutting a text short adds no line feed. -/
theorem oneLine_truncate (limit : Nat) {text : String} (oneLine : OneLine text) :
    OneLine (truncate limit text) := by
  unfold truncate
  split
  · refine .append ?_ (by decide)
    rw [OneLine, String.toList_ofList]
    exact fun member => oneLine (List.mem_of_mem_take member)
  · exact oneLine

/-- An item's description is one line when its name and its label are. -/
theorem oneLine_describe {name : String} {label : Option String} (named : OneLine name)
    (labelled : ∀ text ∈ label, OneLine text) : OneLine (describe name label) := by
  cases label with
  | none => exact named
  | some text => exact (named.append (by decide)).append (oneLine_truncate _ (labelled text rfl))

end Drawing

end KiwiFront
