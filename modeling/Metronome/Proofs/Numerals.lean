-- What a numeral is worth. Numerals far out are not computed, but looked at by
-- the number of their digits. The value is that of the exact number all the
-- same: the nearest binary64 number, unless that is infinite.
import Metronome.Text.Numeral
import Metronome.Proofs.Rounding

namespace Metronome.Text

namespace Numeral

open Binary64 (twoPow nearest infinity)

/-! ## Digits -/

/-- A number lies between the powers of ten that have its width. -/
theorem width_spec {n : Nat} (h : n ≠ 0) : 10 ^ (width n - 1) ≤ n ∧ n < 10 ^ width n := by
  have hpos : 0 < width n := Nat.length_toDigits_pos
  refine ⟨?_, (Nat.length_toDigits_le_iff (by decide) hpos).mp le_rfl⟩
  rcases Nat.eq_zero_or_pos (width n - 1) with hzero | hmore
  · rw [hzero]
    exact Nat.one_le_iff_ne_zero.mpr h
  · refine not_lt.mp fun hlt => ?_
    have hle : width n ≤ width n - 1 := (Nat.length_toDigits_le_iff (by decide) hmore).mpr hlt
    omega

theorem exact_eq (digits : Nat) (exponent : Int) :
    exact digits exponent = digits * (10 : Rat) ^ exponent := by
  unfold exact
  split
  · rename_i h
    obtain ⟨m, rfl⟩ := Int.eq_ofNat_of_zero_le h
    simp
  · rename_i h
    obtain ⟨m, hm⟩ := Int.eq_ofNat_of_zero_le (show 0 ≤ -exponent by omega)
    obtain rfl : exponent = -(m : Int) := by omega
    rw [Rat.mkRat_eq_div]
    simp [div_eq_mul_inv]

theorem exact_nonneg (digits : Nat) (exponent : Int) : 0 ≤ exact digits exponent := by
  rw [exact_eq]
  positivity

/-- The width and the exponent tell how large the exact number is. -/
theorem exact_bounds {digits : Nat} (h : digits ≠ 0) (exponent : Int) :
    (10 : Rat) ^ (exponent + width digits - 1) ≤ exact digits exponent ∧
      exact digits exponent < (10 : Rat) ^ (exponent + width digits) := by
  obtain ⟨hlow, hhigh⟩ := width_spec h
  have hpos : 0 < width digits := Nat.length_toDigits_pos
  have hpow : (0 : Rat) < (10 : Rat) ^ exponent := by positivity
  have hlow' : (10 : Rat) ^ ((width digits : Int) - 1) ≤ digits := by
    rw [show (width digits : Int) - 1 = ((width digits - 1 : Nat) : Int) by omega, zpow_natCast]
    exact_mod_cast hlow
  have hhigh' : (digits : Rat) < (10 : Rat) ^ (width digits : Int) := by
    rw [zpow_natCast]
    exact_mod_cast hhigh
  rw [exact_eq, add_sub_assoc, zpow_add₀ (by norm_num), zpow_add₀ (by norm_num),
    mul_comm (digits : Rat)]
  exact ⟨mul_le_mul_of_nonneg_left hlow' hpow.le, mul_lt_mul_of_pos_left hhigh' hpow⟩

/-! ## Values -/

/-- With more than 310 digits a number is infinite. -/
theorem infinity_le_of_wide {k : Int} (h : 310 ≤ k) : infinity ≤ (10 : Rat) ^ k := by
  have hle : (2 : Nat) ^ 1024 ≤ 10 ^ 310 := by decide +kernel
  have hten : (10 : Rat) ^ ((310 : Nat) : Int) = (10 ^ 310 : Nat) := by
    rw [zpow_natCast, Nat.cast_pow, Nat.cast_ofNat]
  calc infinity ≤ twoPow 1024 := sub_le_self _ (Binary64.twoPow_pos 970).le
    _ = ((2 ^ 1024 : Nat) : Int) := Binary64.twoPow_ofNat 1024
    _ ≤ (10 ^ 310 : Nat) := by rw [Int.cast_natCast]; exact Nat.cast_le.mpr hle
    _ = (10 : Rat) ^ ((310 : Nat) : Int) := hten.symm
    _ ≤ (10 : Rat) ^ k := zpow_le_zpow_right₀ (by norm_num) h

/-- With more than 330 zeros behind the point a number is rounded to zero. -/
theorem lt_twoPow_of_narrow {k : Int} (h : k ≤ -331) : (10 : Rat) ^ k < twoPow (-1075) := by
  refine lt_of_le_of_lt (zpow_le_zpow_right₀ (by norm_num) h) ?_
  have hlt : (2 : Nat) ^ 1075 < 10 ^ 331 := by decide +kernel
  rw [Binary64.twoPow_eq, show (-331 : Int) = -((331 : Nat) : Int) from rfl,
    show (-1075 : Int) = -((1075 : Nat) : Int) from rfl, zpow_neg, zpow_neg, zpow_natCast,
    zpow_natCast]
  exact (inv_lt_inv₀ (by positivity) (by positivity)).mpr (by exact_mod_cast hlt)

theorem twoPow_lt_infinity : twoPow (-1075) < infinity := by
  have hsmall : twoPow (-1075) < twoPow 970 := Binary64.twoPow_lt_iff.mpr (by decide)
  have hdouble : twoPow 971 = 2 * twoPow 970 := Binary64.twoPow_half 971
  have hlarge : twoPow 971 ≤ twoPow 1024 := Binary64.twoPow_le_iff.mpr (by decide)
  rw [infinity]
  linarith

/-- The value of a decimal numeral is the nearest binary64 number. Only a number that is rounded to
infinity has none. -/
theorem value?_decimal (negative : Bool) (digits : Nat) (exponent : Int) :
    value? (.decimal negative digits exponent) =
      if exact digits exponent < infinity then
        some (if negative then -nearest (exact digits exponent)
          else nearest (exact digits exponent))
      else none := by
  have hnonneg := exact_nonneg digits exponent
  have hzero : some (if negative then -(0 : Rat) else 0) = some 0 := by rw [neg_zero, ite_self]
  unfold value?
  dsimp only
  by_cases hdigits : digits = 0
  · have hexact : exact digits exponent = 0 := by rw [exact_eq, hdigits, Nat.cast_zero, zero_mul]
    have hlt : 0 < infinity := (Binary64.twoPow_pos _).trans twoPow_lt_infinity
    rw [if_pos hdigits, hexact, if_pos hlt, Binary64.nearest_zero, hzero]
  obtain ⟨hlow, hhigh⟩ := exact_bounds hdigits exponent
  rw [if_neg hdigits]
  by_cases hwide : 310 < exponent + width digits
  · have hle := (infinity_le_of_wide (by omega)).trans hlow
    rw [if_pos hwide, if_neg (not_lt.mpr hle)]
  rw [if_neg hwide]
  by_cases hnarrow : exponent + width digits < -330
  · have hlt := hhigh.trans (lt_twoPow_of_narrow (by omega))
    rw [if_pos hnarrow, if_pos (hlt.trans twoPow_lt_infinity),
      Binary64.nearest_eq_zero hnonneg hlt, hzero]
  rw [if_neg hnarrow]
  simp only [Binary64.isFinite_iff hnonneg]

end Numeral

end Metronome.Text
