import Mathlib

/-!
# Digits

The digits of a number tell which number it is, in every base that has digits of its own, and
nothing but digits stands between them. Integers may have a sign in front.
-/

namespace KiwiFront.Text

variable {base : Nat} {mark : Char}

/-- A character that is no digit does not stand among digits. -/
theorem notMem_toDigits (noDigit : ∀ digit : Nat, digit.digitChar ≠ mark) (atLeastTwo : 1 < base)
    (value : Nat) : mark ∉ Nat.toDigits base value := by
  induction value using Nat.strongRecOn with
  | ind value inductionHypothesis =>
      rw [Nat.toDigits_eq_if atLeastTwo]
      split
      · exact fun member => noDigit value (List.mem_singleton.1 member).symm
      · next large =>
        have smaller : value / base < value := Nat.div_lt_self (by omega) atLeastTwo
        rw [List.mem_append, List.mem_singleton, not_or]
        exact ⟨inductionHypothesis _ smaller, (noDigit _).symm⟩

theorem digitChar_inj :
    ∀ left < 16, ∀ right < 16, Nat.digitChar left = Nat.digitChar right -> left = right := by
  decide

theorem toDigits_injective (atLeastTwo : 1 < base) (atMost : base ≤ 16) :
    Function.Injective (Nat.toDigits base) := by
  intro value
  induction value using Nat.strongRecOn with
  | ind value inductionHypothesis =>
      intro other same
      rw [Nat.toDigits_eq_if atLeastTwo (n := value),
        Nat.toDigits_eq_if atLeastTwo (n := other)] at same
      have hasDigits (number : Nat) : Nat.toDigits base number ≠ [] := Nat.toDigits_ne_nil
      -- A number with a single digit has no others in front of it.
      split at same <;> split at same
      · exact digitChar_inj value (by omega) other (by omega) (List.cons.inj same).1
      · simp [List.cons_eq_append_iff, hasDigits] at same
      · simp [List.append_eq_cons_iff, hasDigits] at same
      · next large _ =>
        have smaller : value / base < value := Nat.div_lt_self (by omega) atLeastTwo
        have remainder (number : Nat) : number % base < 16 :=
          Nat.lt_of_lt_of_le (Nat.mod_lt _ (by omega)) atMost
        obtain ⟨fronts, lasts⟩ := List.append_inj' same rfl
        have quotients := inductionHypothesis _ smaller fronts
        have remainders := digitChar_inj _ (remainder value) _ (remainder other)
          (List.cons.inj lasts).1
        rw [← Nat.div_add_mod value base, quotients, remainders, Nat.div_add_mod]

theorem notMem_natural (noDigit : ∀ digit : Nat, digit.digitChar ≠ mark) (value : Nat) :
    mark ∉ (toString value).toList := by
  rw [Nat.toString_eq_repr, Nat.toList_repr]
  exact notMem_toDigits noDigit (by decide) value

theorem notMem_integer (noDigit : ∀ digit : Nat, digit.digitChar ≠ mark) (noSign : mark ≠ '-')
    (value : Int) : mark ∉ (toString value).toList := by
  rw [Int.toString_eq_repr, Int.repr_eq_if]
  split
  · exact notMem_natural noDigit _
  · rw [String.toList_append, List.mem_append, not_or]
    exact ⟨fun member => noSign (List.mem_singleton.1 member), notMem_natural noDigit _⟩

theorem integer_injective : Function.Injective (toString : Int -> String) := by
  intro left right same
  rw [Int.toString_eq_repr, Int.toString_eq_repr] at same
  exact Int.repr_injective same

end KiwiFront.Text
