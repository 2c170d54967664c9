-- Whole numbers as they are printed: a row of digits without a needless zero
-- in front, and a minus before it where the number is below zero. Characters
-- that cannot stand for themselves are printed by two hexadecimal digits.
import Metronome.Text.Hex
import Metronome.Proofs.Literals

namespace Metronome.Text

namespace Numeral

/-! ## Decimal digits -/

/-- The digits of a whole number, without its sign. -/
def magnitude (n : Int) : List Char := Nat.toDigits 10 n.natAbs

theorem toList_toString (n : Int) :
    (toString n).toList = (if n < 0 then ['-'] else []) ++ magnitude n := by
  rw [Int.toString_eq_repr, Int.repr_eq_if, magnitude]
  by_cases h : n < 0
  · have habs : (-n).toNat = n.natAbs := by omega
    rw [if_neg (by omega), if_pos h, String.toList_append, Nat.toList_repr, habs]
    rfl
  · have habs : n.toNat = n.natAbs := by omega
    rw [if_pos (by omega), if_neg h, Nat.toList_repr, habs]
    rfl

theorem digits_magnitude (n : Int) : Digits (magnitude n) :=
  ⟨Nat.toDigits_ne_nil, fun _ h => isDigit_of_mem_toDigits h⟩

theorem ofDigits_magnitude (n : Int) : ofDigits (magnitude n) = n.natAbs := ofDigits_toDigits _

theorem digitChar_zero : ∀ n < 10, Nat.digitChar n = '0' → n = 0 := by decide

/-- Only zero begins with a zero. -/
theorem head_toDigits {n : Nat} (h : (Nat.toDigits 10 n).head? = some '0') : n = 0 := by
  induction n using Nat.strong_induction_on with
  | _ n ih =>
    by_cases hsmall : n < 10
    · rw [Nat.toDigits_of_lt_base hsmall] at h
      exact digitChar_zero n hsmall (Option.some.inj h)
    · rw [Nat.toDigits_of_base_le (by decide) (by omega),
        List.head?_append_of_ne_nil _ Nat.toDigits_ne_nil] at h
      have hzero := ih (n / 10) (by omega) h
      omega

theorem head_magnitude {n : Int} (h : (magnitude n).head? = some '0') : n = 0 :=
  Int.natAbs_eq_zero.mp (head_toDigits h)

/-- A printed number begins with a digit or a minus. -/
theorem head_toString (n : Int) :
    ∃ c cs, (toString n).toList = c :: cs ∧ (c.isDigit = true ∨ c = '-') := by
  rw [toList_toString]
  by_cases h : n < 0
  · rw [if_pos h]
    exact ⟨'-', _, rfl, .inr rfl⟩
  · obtain ⟨hne, hdigits⟩ := digits_magnitude n
    obtain ⟨c, cs, hcs⟩ := List.exists_cons_of_ne_nil hne
    rw [if_neg h, hcs]
    exact ⟨c, cs, rfl, .inl (hdigits c (hcs ▸ List.mem_cons_self))⟩

theorem mem_toString {c : Char} {n : Int} (h : c ∈ (toString n).toList) :
    c.isDigit = true ∨ c = '-' := by
  rw [toList_toString] at h
  rcases List.mem_append.mp h with h | h
  · split at h
    · exact .inr (List.mem_singleton.mp h)
    · cases h
  · exact .inl ((digits_magnitude n).2 c h)

/-- Digits and the minus are no other character. -/
theorem ne_of_number {c d : Char} (h : c.isDigit = true ∨ c = '-') (hd : d.isDigit = false)
    (hminus : d ≠ '-') : c ≠ d := by
  rintro rfl
  rcases h with h | h
  · rw [hd] at h
    cases h
  · exact hminus h

theorem signed_toString (n : Int) :
    signed (toString n).toList = (decide (n < 0), magnitude n) := by
  rw [toList_toString]
  by_cases h : n < 0
  · simp [h, signed]
  · rw [if_neg h, List.nil_append, signed_of_signless (digits_magnitude n).signless,
      decide_eq_false h]

/-- The number is its magnitude with its sign. -/
theorem natAbs_signed (n : Int) : (if n < 0 then -(n.natAbs : Int) else n.natAbs) = n := by
  split <;> omega

end Numeral

/-! ## Hexadecimal digits -/

theorem hexValue?_lower : ∀ n < 16, hexValue? (lowerHexDigit n) = some n := by decide

theorem hexValue?_upper : ∀ n < 16, hexValue? (upperHexDigit n) = some n := by decide

/-- The code of a character of one byte, with two zeros in front. -/
theorem hexNumber?_byte {digit : Nat → Char} (hdigit : ∀ n < 16, hexValue? (digit n) = some n)
    {n : Nat} (h : n < 256) :
    hexNumber? ['0', '0', digit (n / 16), digit (n % 16)] = some n := by
  have hzero : hexValue? '0' = some 0 := by decide
  have hhigh := hdigit (n / 16) (by omega)
  have hlow := hdigit (n % 16) (by omega)
  simp only [hexNumber?, List.foldlM_cons, List.foldlM_nil, hzero, hhigh, hlow, Option.map_some,
    Option.bind_eq_bind, Option.bind_some, Option.pure_def]
  congr 1
  omega

end Metronome.Text
