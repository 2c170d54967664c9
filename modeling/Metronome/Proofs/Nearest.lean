-- What rounding finds. An integer, or a binary64 number, that no other one is
-- nearer to, and of two equally near ones the even one. This says all there is
-- to say: rounding finds the only such number.
import Metronome.Proofs.Rounding
import Mathlib.Algebra.Order.Group.Abs
import Mathlib.Algebra.Order.Ring.Abs

namespace Metronome

namespace Binary64

variable {x y z : Rat} {n k : Int}

/-! ## Integers -/

/-- `n` is the integer nearest to `x`. Half way between two it is the even one. -/
structure NearestInt (x : Rat) (n : Int) : Prop where
  near : |(n : Rat) - x| ≤ 1 / 2
  even : |(n : Rat) - x| = 1 / 2 → n % 2 = 0

theorem nearestInt_roundEven (x : Rat) : NearestInt x (roundEven x) := by
  have hlow : (x.floor : Rat) ≤ x := Rat.le_floor_iff.mp le_rfl
  have hhigh : x < x.floor + 1 := by
    have := Rat.floor_lt_iff.mp (Int.lt_succ x.floor)
    push_cast at this
    exact this
  unfold roundEven
  dsimp only
  generalize x.floor = m at hlow hhigh ⊢
  split_ifs with hbelow habove heven
  · refine ⟨abs_le.mpr ⟨by linarith, by linarith⟩, fun h => ?_⟩
    rw [abs_of_nonpos (by linarith)] at h
    linarith
  · refine ⟨abs_le.mpr ⟨by push_cast; linarith, by push_cast; linarith⟩, fun h => ?_⟩
    rw [abs_of_nonneg (by push_cast; linarith)] at h
    push_cast at h
    linarith
  · exact ⟨abs_le.mpr ⟨by linarith, by linarith⟩, fun _ => heven⟩
  · exact ⟨abs_le.mpr ⟨by push_cast; linarith, by push_cast; linarith⟩, fun _ => by omega⟩

/-- If two integers are that near to a number, it lies half way between them. -/
theorem half_way (hne : n ≠ k) (hn : |(n : Rat) - x| ≤ 1 / 2) (hk : |(k : Rat) - x| ≤ 1 / 2) :
    (n = k + 1 ∨ k = n + 1) ∧ |(n : Rat) - x| = 1 / 2 ∧ |(k : Rat) - x| = 1 / 2 := by
  have hapart : 1 ≤ |n - k| := Int.one_le_abs (sub_ne_zero.mpr hne)
  have hapart' : (1 : Rat) ≤ |(n : Rat) - k| := by exact_mod_cast hapart
  have hsum : |(n : Rat) - k| ≤ |(n : Rat) - x| + |(k : Rat) - x| := by
    rw [abs_sub_comm (k : Rat)]
    exact abs_sub_le _ _ _
  have hle : |n - k| ≤ 1 := by
    have hle' : |(n : Rat) - k| ≤ 1 := by linarith
    exact_mod_cast hle'
  refine ⟨?_, by linarith, by linarith⟩
  rcases abs_cases (n - k) with ⟨habs, -⟩ | ⟨habs, -⟩ <;> omega

theorem le_of_near (hn : (n : Rat) ≤ x) (hk : |(k : Rat) - x| ≤ 1 / 2) : n ≤ k := by
  have hbelow := (abs_le.mp hk).1
  have hlt : (n : Rat) < k + 1 := by linarith
  exact Int.lt_add_one_iff.mp (by exact_mod_cast hlt)

theorem NearestInt.eq (h : NearestInt x n) (h' : NearestInt x k) : n = k := by
  by_contra hne
  obtain ⟨hnext, hn, hk⟩ := half_way hne h.near h'.near
  have hneven := h.even hn
  have hkeven := h'.even hk
  omega

theorem roundEven_eq_iff : roundEven x = n ↔ NearestInt x n :=
  ⟨fun h => h ▸ nearestInt_roundEven x, fun h => (nearestInt_roundEven x).eq h⟩

/-- No integer is nearer than the nearest one. -/
theorem NearestInt.le (h : NearestInt x n) (k : Int) : |(n : Rat) - x| ≤ |(k : Rat) - x| := by
  by_contra hlt
  have hk : |(k : Rat) - x| < |(n : Rat) - x| := not_le.mp hlt
  have hne : n ≠ k := by
    rintro rfl
    exact lt_irrefl _ hk
  have hn := h.near
  obtain ⟨-, hn', hk'⟩ := half_way hne hn (by linarith)
  linarith

/-! ## Binary64 numbers -/

/-- A number with a significand of 53 binary digits. There is no upper end of the exponents here. -/
def IsNumber (y : Rat) : Prop := ∃ m e : Int, |m| < 2 ^ 53 ∧ -1074 ≤ e ∧ y = m * twoPow e

/-- The significand can be taken to be even. Where it is odd, the number has no other one. -/
def IsEven (y : Rat) : Prop :=
  ∃ m e : Int, |m| < 2 ^ 53 ∧ -1074 ≤ e ∧ m % 2 = 0 ∧ y = m * twoPow e

/-- `y` is the binary64 number nearest to `x`. If another one is as near, it is the even one. -/
structure IsNearest (x y : Rat) : Prop where
  number : IsNumber y
  near : ∀ z, IsNumber z → |y - x| ≤ |z - x|
  even : ∀ z, IsNumber z → z ≠ y → |z - x| = |y - x| → IsEven y

/-- The distance of two numbers, counted in units. -/
theorem abs_mul_sub (k : Int) (x : Rat) {u : Rat} (hu : 0 < u) :
    |(k : Rat) * u - x| = |(k : Rat) - x / u| * u := by
  rw [← abs_of_pos hu, ← abs_mul, abs_of_pos hu, sub_mul, div_mul_cancel₀ x hu.ne']

theorem IsEven.isNumber (h : IsEven y) : IsNumber y := by
  obtain ⟨m, e, hm, he, -, rfl⟩ := h
  exact ⟨m, e, hm, he, rfl⟩

/-- A significand that has become too long by one digit is moved to another place. -/
theorem isEven_of_le {e : Int} (hlow : 0 ≤ k) (hhigh : k ≤ 2 ^ 53) (heven : k % 2 = 0)
    (he : -1074 ≤ e) : IsEven (k * twoPow e) := by
  rcases Int.lt_or_eq_of_le hhigh with hlt | rfl
  · exact ⟨k, e, abs_lt.mpr ⟨by omega, hlt⟩, he, heven, rfl⟩
  · refine ⟨2, e + 52, by decide, by omega, rfl, ?_⟩
    rw [add_comm e, twoPow_add, twoPow_eq 52]
    norm_num
    ring

theorem isNumber_of_le {e : Int} (hlow : 0 ≤ k) (hhigh : k ≤ 2 ^ 53) (he : -1074 ≤ e) :
    IsNumber (k * twoPow e) := by
  rcases Int.lt_or_eq_of_le hhigh with hlt | rfl
  · exact ⟨k, e, abs_lt.mpr ⟨by omega, hlt⟩, he, rfl⟩
  · exact (isEven_of_le hlow le_rfl (by decide) he).isNumber

/-! ## The nearest one -/

theorem le_lastPlace (hx : 0 < x) : -1074 ≤ lastPlace x := by
  rw [lastPlace_eq hx]
  omega

theorem scaled_lt (hx : 0 < x) : x / twoPow (lastPlace x) < ((2 ^ 53 : Int) : Rat) := by
  have hplace := lastPlace_eq hx
  rw [div_lt_iff₀ (twoPow_pos _)]
  calc x < twoPow (log2 x + 1) := (log2_spec hx).2
    _ ≤ twoPow (53 + lastPlace x) := twoPow_le_iff.mpr (by omega)
    _ = ((2 ^ 53 : Int) : Rat) * twoPow (lastPlace x) := by
      rw [twoPow_add, twoPow_eq 53]
      norm_num

/-- The nearest number is counted in units of its last place. -/
theorem exists_nearest_eq (hx : 0 < x) : ∃ k : Int, NearestInt (x / twoPow (lastPlace x)) k ∧
    0 ≤ k ∧ k ≤ 2 ^ 53 ∧ nearest x = k * twoPow (lastPlace x) := by
  refine ⟨_, nearestInt_roundEven _, le_roundEven ?_, roundEven_le (scaled_lt hx).le, nearest_eq hx⟩
  rw [Int.cast_zero]
  exact (div_pos hx (twoPow_pos _)).le

/-- A number that is not counted in these units is farther away. Below the power of two that comes
before `x` the numbers lie closer together, but the power itself is nearer than all of them. -/
theorem on_grid (hx : 0 < x) (hz : IsNumber z) (hnear : |z - x| ≤ |nearest x - x|) :
    ∃ k : Int, z = k * twoPow (lastPlace x) := by
  obtain ⟨m, e, hm, he, rfl⟩ := hz
  rcases le_or_gt (lastPlace x) e with hle | hlt
  · obtain ⟨c, hc⟩ := exists_twoPow_eq_mul hle
    exact ⟨m * c, by rw [hc]; push_cast; ring⟩
  · exfalso
    have hpos := twoPow_pos (lastPlace x)
    have hplace : lastPlace x = log2 x - 52 := by
      have := lastPlace_eq hx
      omega
    have hpower : twoPow (log2 x) = ((2 ^ 52 : Int) : Rat) * twoPow (lastPlace x) := by
      rw [show log2 x = 52 + lastPlace x by omega, twoPow_add, twoPow_eq 52]
      norm_num
    have hbelow : m * twoPow e < twoPow (log2 x) := by
      have hm' : (m : Rat) < ((2 ^ 53 : Int) : Rat) := by exact_mod_cast (abs_lt.mp hm).2
      calc m * twoPow e < ((2 ^ 53 : Int) : Rat) * twoPow e :=
            mul_lt_mul_of_pos_right hm' (twoPow_pos e)
        _ = twoPow (53 + e) := by
            rw [twoPow_add, twoPow_eq 53]
            norm_num
        _ ≤ twoPow (log2 x) := twoPow_le_iff.mpr (by omega)
    have habove := (log2_spec hx).1
    obtain ⟨k, hk, -, -, hnearest⟩ := exists_nearest_eq hx
    have hcloser : |nearest x - x| ≤ |twoPow (log2 x) - x| := by
      rw [hnearest, hpower, abs_mul_sub _ _ hpos, abs_mul_sub _ _ hpos]
      exact mul_le_mul_of_nonneg_right (hk.le _) hpos.le
    rw [abs_of_nonpos (by linarith : twoPow (log2 x) - x ≤ 0)] at hcloser
    rw [abs_of_nonpos (by linarith : m * twoPow e - x ≤ 0)] at hnear
    linarith

/-- Rounding finds the nearest number. -/
theorem isNearest_nearest (hx : 0 ≤ x) : IsNearest x (nearest x) := by
  rcases hx.eq_or_lt with rfl | hx
  · refine ⟨⟨0, 0, by decide, by decide, by simp⟩, fun z _ => by simp, fun z _ hne h => ?_⟩
    rw [nearest_zero, sub_self, abs_zero, sub_zero, abs_eq_zero] at h
    exact absurd h hne
  have hpos := twoPow_pos (lastPlace x)
  obtain ⟨k, hk, hlow, hhigh, hnearest⟩ := exists_nearest_eq hx
  refine ⟨?_, fun z hz => ?_, fun z hz hne h => ?_⟩
  · rw [hnearest]
    exact isNumber_of_le hlow hhigh (le_lastPlace hx)
  · by_contra hlt
    obtain ⟨c, rfl⟩ := on_grid hx hz (not_le.mp hlt).le
    refine hlt ?_
    rw [hnearest, abs_mul_sub _ _ hpos, abs_mul_sub _ _ hpos]
    exact mul_le_mul_of_nonneg_right (hk.le c) hpos.le
  · obtain ⟨c, rfl⟩ := on_grid hx hz h.le
    rw [hnearest, abs_mul_sub _ _ hpos, abs_mul_sub _ _ hpos, mul_left_inj' hpos.ne'] at h
    have hck : c ≠ k := by
      rintro rfl
      exact hne hnearest.symm
    obtain ⟨-, -, hhalf⟩ := half_way hck (h.le.trans hk.near) hk.near
    rw [hnearest]
    exact isEven_of_le hlow hhigh (hk.even hhalf) (le_lastPlace hx)

/-- From the first significand of full length on, an odd number of units is no even number. -/
theorem not_isEven {e : Int} (hodd : k % 2 = 1) (hlong : e = -1074 ∨ 2 ^ 52 ≤ k) :
    ¬ IsEven (k * twoPow e) := by
  rintro ⟨m, e', hm, he', heven, heq⟩
  rcases le_or_gt e e' with hle | hlt
  · obtain ⟨c, hc⟩ := exists_twoPow_eq_mul hle
    rw [hc, ← mul_assoc, mul_left_inj' (twoPow_pos e).ne'] at heq
    have hk : k = m * c := by exact_mod_cast heq
    rw [hk, Int.mul_emod, heven] at hodd
    simp at hodd
  · obtain ⟨c, hc⟩ := exists_twoPow_eq_mul (e := e') (g := e - 1) (by omega)
    have htwo : twoPow e = 2 * c * twoPow e' := by
      rw [mul_assoc, ← hc]
      exact twoPow_half e
    rw [htwo, ← mul_assoc, mul_left_inj' (twoPow_pos e').ne'] at heq
    have hmk : m = k * (2 * c) := by exact_mod_cast heq.symm
    have hc1 : 1 ≤ c := by
      by_contra hc0
      have hneg : (c : Rat) * twoPow e' ≤ 0 :=
        mul_nonpos_of_nonpos_of_nonneg (by exact_mod_cast (show c ≤ 0 by omega)) (twoPow_pos e').le
      have := twoPow_pos (e - 1)
      linarith
    have hlarge : 2 ^ 52 ≤ k := by
      rcases hlong with rfl | hlong
      · omega
      · exact hlong
    have hm' := (abs_lt.mp hm).2
    rw [hmk] at hm'
    nlinarith

/-- There is no other nearest number. -/
theorem IsNearest.eq (h : IsNearest x y) (hx : 0 ≤ x) : y = nearest x := by
  have hself := isNearest_nearest hx
  by_contra hne
  have hnear := h.near _ hself.number
  have hfar := hself.near _ h.number
  have heven := h.even _ hself.number (Ne.symm hne) (le_antisymm hfar hnear)
  rcases hx.eq_or_lt with rfl | hx
  · rw [nearest_zero, sub_self, abs_zero, sub_zero] at hnear
    exact hne (abs_eq_zero.mp (le_antisymm hnear (abs_nonneg y)))
  have hpos := twoPow_pos (lastPlace x)
  obtain ⟨k, hk, -, -, hnearest⟩ := exists_nearest_eq hx
  obtain ⟨c, rfl⟩ := on_grid hx h.number hnear
  rw [hnearest, abs_mul_sub _ _ hpos, abs_mul_sub _ _ hpos] at hnear
  have hck : c ≠ k := by
    rintro rfl
    exact hne hnearest.symm
  have hclose := (le_of_mul_le_mul_right hnear hpos).trans hk.near
  obtain ⟨hnext, hhalf, hhalf'⟩ := half_way hck hclose hk.near
  -- The other one is odd, and it is long enough for that to count.
  have hodd : c % 2 = 1 := by
    have := hk.even hhalf'
    omega
  refine not_isEven hodd ?_ heven
  rcases Int.lt_or_eq_of_le (le_lastPlace hx) with hlt | heq
  · right
    have hplace : log2 x = 52 + lastPlace x := by
      have := lastPlace_eq hx
      omega
    have hlow : ((2 ^ 52 : Int) : Rat) ≤ x / twoPow (lastPlace x) := by
      rw [le_div_iff₀ hpos]
      calc ((2 ^ 52 : Int) : Rat) * twoPow (lastPlace x) = twoPow (log2 x) := by
            rw [hplace, twoPow_add, twoPow_eq 52]
            norm_num
        _ ≤ x := (log2_spec hx).1
    exact le_of_near hlow hclose
  · exact .inl heq.symm

theorem nearest_eq_iff (hx : 0 ≤ x) : nearest x = y ↔ IsNearest x y :=
  ⟨fun h => h ▸ isNearest_nearest hx, fun h => (h.eq hx).symm⟩

/-! ## How far rounding goes -/

/-- Rounding changes a number by half a unit of its last place at most. -/
theorem abs_nearest_sub_le (hx : 0 ≤ x) : |nearest x - x| ≤ x / 2 ^ 53 + twoPow (-1075) := by
  have hleast := twoPow_pos (-1075)
  rcases hx.eq_or_lt with rfl | hx
  · simpa using hleast.le
  obtain ⟨k, hk, -, -, hnearest⟩ := exists_nearest_eq hx
  have hhalf : |nearest x - x| ≤ twoPow (lastPlace x - 1) := by
    have hmoved := mul_le_mul_of_nonneg_right hk.near (twoPow_pos (lastPlace x)).le
    have hunit := twoPow_half (lastPlace x)
    rw [hnearest, abs_mul_sub _ _ (twoPow_pos _)]
    linarith
  refine hhalf.trans ?_
  rcases max_choice (-1074) (log2 x - 52) with hplace | hplace <;> rw [lastPlace_eq hx, hplace]
  · have : 0 ≤ x / 2 ^ 53 := by positivity
    exact le_add_of_nonneg_left this
  · have hlog : twoPow (log2 x) = 2 ^ 53 * twoPow (log2 x - 52 - 1) := by
      have hpower : twoPow 53 = 2 ^ 53 := twoPow_natCast 53
      rw [← hpower, ← twoPow_add]
      ring_nf
    have hle : twoPow (log2 x - 52 - 1) ≤ x / 2 ^ 53 := by
      rw [le_div_iff₀ (by positivity), mul_comm, ← hlog]
      exact (log2_spec hx).1
    linarith

/-- That is one part in 2^53, and next to nothing more. -/
theorem near_nearest (hx : 0 ≤ x) : |nearest x - x| ≤ x / 2 ^ 53 + 1 / 10 ^ 30 := by
  have hleast : twoPow (-1075) ≤ 1 / 10 ^ 30 := by
    calc twoPow (-1075) ≤ twoPow (-100) := twoPow_le_iff.mpr (by decide)
      _ ≤ 1 / 10 ^ 30 := by
        rw [twoPow_eq]
        norm_num
  exact (abs_nearest_sub_le hx).trans (by linarith)

/-! ## Numbers that stay as they are -/

theorem IsNumber.nearest_eq (h : IsNumber x) (hx : 0 ≤ x) : nearest x = x := by
  refine (nearest_eq_iff hx).mpr ⟨h, fun z _ => ?_, fun z _ hne hz => ?_⟩
  · rw [sub_self, abs_zero]
    exact abs_nonneg _
  · rw [sub_self, abs_zero, abs_eq_zero] at hz
    exact absurd (sub_eq_zero.mp hz) hne

/-- A whole number with no more than 53 binary digits. -/
theorem nearest_natCast {n : Nat} (h : n ≤ 2 ^ 53) : nearest n = n := by
  have hnumber := isNumber_of_le (k := n) (e := 0) (by omega) (by exact_mod_cast h) (by decide)
  rw [twoPow_eq, zpow_zero, mul_one, Int.cast_natCast] at hnumber
  exact hnumber.nearest_eq (Nat.cast_nonneg n)

end Binary64

end Metronome
