import KiwiFront.Proofs.Text.Digits
import KiwiFront.Text.Alignment
import KiwiFront.Text.Quoted

/-!
# Texts that can be read back

What is written of a value is legible if it can be read off the front of a text, whatever follows
there: it tells the value, and it shows where it ends. Legible parts written one behind the other
are legible, as are lists whose end is marked. A number or a name that is aligned in a column is
legible up to the mark behind the column, and so is a quoted text, since no written form of a
character begins that of another one.
-/

namespace KiwiFront.Text

variable {Value Other : Type} {mark : Char}

/-- Texts that begin with written values agree only if the values do, and what follows them. -/
def Legible (write : Value -> List Char) : Prop :=
  ∀ value other rest later, write value ++ rest = write other ++ later ->
    value = other ∧ rest = later

/-- Up to a mark that is in neither of them, texts that agree are the same. -/
theorem eq_of_marked {left right rest later : List Char} (fresh : mark ∉ left)
    (freshToo : mark ∉ right) (same : left ++ mark :: rest = right ++ mark :: later) :
    left = right := by
  have cut := congrArg (List.splitOn mark) same
  rw [List.splitOn_append_cons_self_of_not_mem fresh,
    List.splitOn_append_cons_self_of_not_mem freshToo] at cut
  exact (List.cons.inj cut).1

namespace Legible

variable {write : Value -> List Char}

/-- Legible values are written differently. -/
theorem injective (legible : Legible write) : Function.Injective write := fun value other same =>
  (legible value other [] [] (congrArg (· ++ []) same)).1

/-- What tells a value is legible with a mark behind it that it does not contain. -/
theorem marked (injective : Function.Injective write) (fresh : ∀ value, mark ∉ write value) :
    Legible fun value => write value ++ [mark] := by
  intro value other rest later same
  simp only [List.append_assoc, List.singleton_append] at same
  have texts := eq_of_marked (fresh value) (fresh other) same
  rw [texts] at same
  exact ⟨injective texts, (List.cons.inj (List.append_cancel_left same)).2⟩

/-- A legible value may stand before another one. -/
theorem before {writeOther : Other -> List Char} (first : Legible write)
    (second : Legible writeOther) :
    Legible fun pair : Value × Other => write pair.1 ++ writeOther pair.2 := by
  rintro ⟨value, following⟩ ⟨other, otherFollowing⟩ rest later same
  simp only [List.append_assoc] at same
  obtain ⟨rfl, behind⟩ := first _ _ _ _ same
  obtain ⟨rfl, ends⟩ := second _ _ _ _ behind
  exact ⟨rfl, ends⟩

/-- Whatever a value is followed by on its own account does no harm. -/
theorem followed (legible : Legible write) (more : Value -> List Char) :
    Legible fun value => write value ++ more value := by
  intro value other rest later same
  simp only [List.append_assoc] at same
  obtain ⟨rfl, behind⟩ := legible _ _ _ _ same
  exact ⟨rfl, List.append_cancel_left behind⟩

theorem behind (legible : Legible write) (front : List Char) :
    Legible fun value => front ++ write value := by
  intro value other rest later same
  simp only [List.append_assoc] at same
  exact legible _ _ _ _ (List.append_cancel_left same)

theorem of_injective (legible : Legible write) {view : Other -> Value}
    (injective : Function.Injective view) : Legible fun other => write (view other) := by
  intro value other rest later same
  obtain ⟨views, ends⟩ := legible _ _ _ _ same
  exact ⟨injective views, ends⟩

/-- A list is legible if its end is marked by what begins none of its members. -/
theorem list (legible : Legible write)
    (unmarked : ∀ value, ∃ first rest, write value = first :: rest ∧ first ≠ mark) :
    Legible fun values : List Value => values.flatMap write ++ [mark] := by
  intro values
  induction values with
  | nil =>
      intro others rest later same
      cases others with
      | nil => exact ⟨rfl, (List.cons.inj same).2⟩
      | cons other others =>
          obtain ⟨first, written, isWritten, notMark⟩ := unmarked other
          simp only [List.flatMap_cons, isWritten] at same
          exact absurd (List.cons.inj same).1.symm notMark
  | cons value values inductionHypothesis =>
      intro others rest later same
      cases others with
      | nil =>
          obtain ⟨first, written, isWritten, notMark⟩ := unmarked value
          simp only [List.flatMap_cons, isWritten] at same
          exact absurd (List.cons.inj same).1 notMark
      | cons other others =>
          simp only [List.flatMap_cons, List.append_assoc] at same
          obtain ⟨rfl, behind⟩ := legible _ _ _ _ same
          simp only [← List.append_assoc] at behind
          obtain ⟨rfl, ends⟩ := inductionHypothesis _ _ _ behind
          exact ⟨rfl, ends⟩

end Legible

section Columns

variable {written : Value -> String} (injective : Function.Injective written)
  (blankless : ∀ value, ' ' ∉ (written value).toList)

include injective blankless

/-- In a column that is aligned on the left, a blank stands behind the text. -/
theorem legible_alignLeft (width : Nat) :
    Legible fun value => (alignLeft width (written value)).toList ++ [' '] := by
  have toList_injective : Function.Injective fun value => (written value).toList :=
    fun _ _ same => injective (String.toList_injective same)
  have padded := (Legible.marked toList_injective blankless).followed fun value =>
    List.replicate (width - (written value).length) ' '
  -- The blanks behind the text and the one behind the column are all alike.
  have same (value : Value) : (alignLeft width (written value)).toList ++ [' '] =
      (written value).toList ++ [' '] ++
        List.replicate (width - (written value).length) ' ' := by
    simp [alignLeft, ← List.replicate_succ, ← List.replicate_succ']
  simpa only [same] using padded

/-- In a column that is aligned on the right, the blanks end where the text begins. -/
theorem legible_alignRight (width : Nat) (noBlank : mark ≠ ' ')
    (fresh : ∀ value, mark ∉ (written value).toList) :
    Legible fun value => (alignRight width (written value)).toList ++ [mark] := by
  have text (value : Value) :
      (alignRight width (written value)).toList.dropWhile (· = ' ') = (written value).toList := by
    rw [alignRight, String.toList_append, String.toList_ofList,
      List.dropWhile_append_of_pos (by simp), List.dropWhile_eq_self_iff]
    intro nonempty
    have isFirst : (written value).toList[0] ∈ (written value).toList := List.getElem_mem _
    exact fun isBlank => blankless value (of_decide_eq_true isBlank ▸ isFirst)
  refine Legible.marked (fun value other same => ?_) fun value => ?_
  · have texts := congrArg (List.dropWhile (· = ' ')) same
    simp only [text] at texts
    exact injective (String.toList_injective texts)
  · simp [alignRight, noBlank, fresh value]

end Columns

/-- The characters that are written as a backslash and one more character, and that one. -/
def shortEscapes : List (Char × Char) :=
  [('"', '"'), ('\\', '\\'), ('\x00', '0'), ('\t', 't'), ('\r', 'r'), ('\n', 'n')]

/-- The three ways to write a character between quotes. -/
inductive WrittenAs : Char -> List Char -> Prop
  | escaped {character letter} (listed : (character, letter) ∈ shortEscapes) :
      WrittenAs character ['\\', letter]
  | plain {character} (noQuote : character ≠ '"') (noEscape : character ≠ '\\') :
      WrittenAs character [character]
  | coded {character} :
      WrittenAs character (['\\', 'u', '\x7b'] ++ (hexDigits character.toNat ++ ['\x7d']))

theorem quoteCharacter_writtenAs (character : Char) :
    WrittenAs character (quoteCharacter character) := by
  unfold quoteCharacter
  split
  case h_7 noQuote noEscape _ _ _ _ =>
    split
    · exact .plain noQuote noEscape
    · rw [List.append_assoc]
      exact .coded
  all_goals exact .escaped (by decide)

/-- A code point ends with the brace behind it. -/
theorem legible_codePoint :
    Legible fun character : Char => hexDigits character.toNat ++ ['\x7d'] := by
  refine Legible.marked (fun left right same => ?_) fun character => ?_
  · exact Char.toNat_inj.1 (toDigits_injective (by decide) (by decide) same)
  · exact notMem_toDigits (fun digit => Nat.digitChar_ne '\x7d' rfl) (by decide) _

theorem shortEscapes_inj : ∀ left ∈ shortEscapes, ∀ right ∈ shortEscapes,
    left.2 = right.2 -> left.1 = right.1 := by decide

theorem shortEscapes_noCode : ∀ escape ∈ shortEscapes, escape.2 ≠ 'u' := by decide

/-- No written form of a character begins that of another one. -/
theorem legible_quoteCharacter : Legible quoteCharacter := by
  intro value other rest later same
  have first := quoteCharacter_writtenAs value
  have second := quoteCharacter_writtenAs other
  generalize quoteCharacter value = left at same first
  generalize quoteCharacter other = right at same second
  cases first with
  | escaped listed =>
      cases second with
      | escaped listedToo =>
          simp only [List.cons_append, List.nil_append, List.cons.injEq, true_and] at same
          exact ⟨shortEscapes_inj _ listed _ listedToo same.1, same.2⟩
      | plain _ noEscape => exact absurd (List.cons.inj same).1.symm noEscape
      | coded =>
          have letters := (List.cons.inj (List.cons.inj same).2).1
          exact absurd letters (shortEscapes_noCode _ listed)
  | plain _ noEscape =>
      cases second with
      | plain => exact List.cons.inj same
      | escaped | coded => exact absurd (List.cons.inj same).1 noEscape
  | coded =>
      cases second with
      | coded => exact legible_codePoint.behind _ _ _ _ _ same
      | plain _ noEscape => exact absurd (List.cons.inj same).1.symm noEscape
      | escaped listed =>
          have letters := (List.cons.inj (List.cons.inj same).2).1
          exact absurd letters.symm (shortEscapes_noCode _ listed)

/-- A quoted text ends with the first quote that is not escaped. -/
theorem legible_quoted : Legible fun text => (quoted text).toList := by
  have unmarked (character : Char) : ∃ first rest,
      quoteCharacter character = first :: rest ∧ first ≠ '"' := by
    have writtenAs := quoteCharacter_writtenAs character
    generalize quoteCharacter character = written at writtenAs
    cases writtenAs with
    | escaped | coded => exact ⟨_, _, rfl, by decide⟩
    | plain noQuote => exact ⟨_, _, rfl, noQuote⟩
  have toList_injective : Function.Injective String.toList :=
    fun _ _ same => String.toList_injective same
  have legible := ((legible_quoteCharacter.list unmarked).behind ['"']).of_injective
    toList_injective
  simpa only [quoted, quoteCharacters, String.toList_ofList, List.cons_append, List.nil_append]
    using legible

end KiwiFront.Text
