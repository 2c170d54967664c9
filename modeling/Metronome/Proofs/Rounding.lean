-- The laws of rounding to binary64. Rounding keeps the order of numbers, and
-- what lies on the way from one binary64 number to the next goes to the nearer
-- of the two. A number half way goes to the even one.
import Metronome.Binary64
import Mathlib.Algebra.Order.Field.Rat
import Mathlib.Algebra.Order.Field.Power
import Mathlib.Tactic.Linarith
import Mathlib.Tactic.NormNum
import Mathlib.Tactic.Positivity
import Mathlib.Tactic.Ring

namespace Metronome

namespace Binary64

variable {x y : Rat} {n k e g : Int}

/-! ## Rounding to an integer -/

theorem roundEven_le_of_lt (h : x < n + 1 / 2) : roundEven x ≤ n := by
  have hfloor : x.floor ≤ n := by
    have hlt : x.floor < n + 1 := by
      rw [Rat.floor_lt_iff]
      push_cast
      linarith
    omega
  rcases Int.lt_or_eq_of_le hfloor with hlt | heq
  · unfold roundEven
    dsimp only
    split_ifs <;> omega
  · have hrest : x - (x.floor : Rat) < 1 / 2 := by
      rw [heq]
      linarith
    unfold roundEven
    dsimp only
    rw [if_pos hrest, heq]

theorem le_roundEven_of_lt (h : (n : Rat) - 1 / 2 < x) : n ≤ roundEven x := by
  have hle : x.floor ≤ roundEven x := by
    unfold roundEven
    dsimp only
    split_ifs <;> omega
  by_cases hn : (n : Rat) ≤ x
  · exact (Rat.le_floor_iff.mpr hn).trans hle
  · have hfloor : n - 1 ≤ x.floor := by
      rw [Rat.le_floor_iff]
      push_cast
      linarith
    have hcast : ((x.floor : Int) : Rat) ≤ n - 1 := by
      have hlt : x.floor < n := Rat.floor_lt_iff.mpr (not_le.mp hn)
      exact_mod_cast Int.le_sub_one_of_lt hlt
    have hrest : 1 / 2 < x - (x.floor : Rat) := by linarith
    unfold roundEven
    dsimp only
    rw [if_neg (not_lt.mpr hrest.le), if_pos hrest]
    omega

/-- Half way between an odd number and the next one, the next one is the nearest. -/
theorem roundEven_half (h : n % 2 = 1) : roundEven (n + 1 / 2) = n + 1 := by
  have hfloor : (n + 1 / 2 : Rat).floor = n := by
    apply le_antisymm
    · have hlt : (n + 1 / 2 : Rat).floor < n + 1 := by
        rw [Rat.floor_lt_iff]
        push_cast
        linarith
      omega
    · rw [Rat.le_floor_iff]
      linarith
  unfold roundEven
  dsimp only
  rw [hfloor, add_sub_cancel_left, if_neg (lt_irrefl _), if_neg (lt_irrefl _), if_neg (by omega)]

theorem roundEven_le (h : x ≤ n) : roundEven x ≤ n := roundEven_le_of_lt (by linarith)

theorem le_roundEven (h : (n : Rat) ≤ x) : n ≤ roundEven x := le_roundEven_of_lt (by linarith)

theorem roundEven_mono (h : x ≤ y) : roundEven x ≤ roundEven y := by
  by_cases hx : x < roundEven y + 1 / 2
  · exact roundEven_le_of_lt hx
  · -- Both stand half way, since `y` is not rounded beyond.
    have hy : ¬ ((roundEven y + 1 : Int) : Rat) - 1 / 2 < y := by
      intro hlt
      have := le_roundEven_of_lt hlt
      omega
    push_cast at hy
    have heq : x = y := by linarith
    rw [heq]

/-! ## Powers of two -/

theorem twoPow_eq (k : Int) : twoPow k = (2 : Rat) ^ k := by
  unfold twoPow
  split
  · rename_i h
    obtain ⟨m, rfl⟩ := Int.eq_ofNat_of_zero_le h
    simp
  · rename_i h
    obtain ⟨m, hm⟩ := Int.eq_ofNat_of_zero_le (show 0 ≤ -k by omega)
    obtain rfl : k = -(m : Int) := by omega
    simp

theorem twoPow_pos (k : Int) : 0 < twoPow k := by
  rw [twoPow_eq]
  positivity

theorem twoPow_add (k g : Int) : twoPow (k + g) = twoPow k * twoPow g := by
  rw [twoPow_eq, twoPow_eq, twoPow_eq, zpow_add₀ two_ne_zero]

theorem twoPow_le_iff : twoPow k ≤ twoPow g ↔ k ≤ g := by
  rw [twoPow_eq, twoPow_eq]
  exact zpow_le_zpow_iff_right₀ one_lt_two

theorem twoPow_lt_iff : twoPow k < twoPow g ↔ k < g := by
  rw [twoPow_eq, twoPow_eq]
  exact zpow_lt_zpow_iff_right₀ one_lt_two

/-- A power of two with a whole exponent is a whole number. -/
theorem twoPow_ofNat (m : Nat) : twoPow m = ((2 ^ m : Nat) : Int) := by
  rw [twoPow_eq]
  simp

theorem twoPow_natCast (m : Nat) : twoPow m = 2 ^ m := (twoPow_eq m).trans (zpow_natCast 2 m)

theorem twoPow_half (e : Int) : twoPow e = 2 * twoPow (e - 1) := by
  rw [show e = 1 + (e - 1) by ring, twoPow_add, twoPow_eq 1, zpow_one]
  ring_nf

/-- A larger power of two is a multiple of a smaller one. -/
theorem exists_twoPow_eq_mul (h : e ≤ g) : ∃ m : Int, twoPow g = m * twoPow e := by
  obtain ⟨m, hm⟩ := Int.eq_ofNat_of_zero_le (show 0 ≤ g - e by omega)
  refine ⟨(2 ^ m : Nat), ?_⟩
  rw [← twoPow_ofNat, ← twoPow_add]
  congr 1
  omega

/-! ## The exponent of a number -/

theorem twoPow_log2_natCast {m : Nat} (h : m ≠ 0) :
    twoPow m.log2 ≤ m ∧ (m : Rat) < twoPow (m.log2 + 1) := by
  have hlow := Nat.log2_self_le h
  have hhigh := Nat.lt_log2_self (n := m)
  rw [twoPow_ofNat, ← Nat.cast_succ, twoPow_ofNat]
  exact ⟨by exact_mod_cast hlow, by exact_mod_cast hhigh⟩

/-- A number lies between its power of two and the next. -/
theorem log2_spec (h : 0 < x) : twoPow (log2 x) ≤ x ∧ x < twoPow (log2 x + 1) := by
  have hnum : (x.num.natAbs : Rat) = x.num := by
    rw [← Int.cast_natCast, Int.natAbs_of_nonneg (Rat.num_pos.mpr h).le]
  have hden : (0 : Rat) < x.den := by exact_mod_cast x.den_pos
  have hx : x * x.den = x.num.natAbs := by rw [hnum, Rat.mul_den_eq_num]
  have hne : x.num.natAbs ≠ 0 := Int.natAbs_ne_zero.mpr (Rat.num_pos.mpr h).ne'
  obtain ⟨hn, hn'⟩ := twoPow_log2_natCast hne
  obtain ⟨hd, hd'⟩ := twoPow_log2_natCast x.den_nz
  generalize hk : (x.num.natAbs.log2 : Int) - x.den.log2 = k
  -- The quotient of the two powers is wrong by one at most.
  have hlow : twoPow (k - 1) ≤ x := by
    have hsplit : twoPow x.num.natAbs.log2 = twoPow (k - 1) * twoPow (x.den.log2 + 1) := by
      rw [← twoPow_add, ← hk]
      congr 1
      ring
    refine le_of_mul_le_mul_right ?_ hden
    calc twoPow (k - 1) * x.den ≤ twoPow (k - 1) * twoPow (x.den.log2 + 1) :=
          mul_le_mul_of_nonneg_left hd'.le (twoPow_pos _).le
      _ = twoPow x.num.natAbs.log2 := hsplit.symm
      _ ≤ x * x.den := by rw [hx]; exact hn
  have hhigh : x < twoPow (k + 1) := by
    have hsplit : twoPow (x.num.natAbs.log2 + 1) = twoPow (k + 1) * twoPow x.den.log2 := by
      rw [← twoPow_add, ← hk]
      congr 1
      ring
    refine lt_of_mul_lt_mul_right ?_ hden.le
    calc x * x.den < twoPow (x.num.natAbs.log2 + 1) := by rw [hx]; exact hn'
      _ = twoPow (k + 1) * twoPow x.den.log2 := hsplit
      _ ≤ twoPow (k + 1) * x.den := mul_le_mul_of_nonneg_left hd (twoPow_pos _).le
  unfold log2
  dsimp only
  rw [hk]
  split_ifs with hlt
  · exact ⟨hlow, by rwa [sub_add_cancel]⟩
  · exact ⟨not_lt.mp hlt, hhigh⟩

/-- The exponent is the only one whose power of two comes right before the number. -/
theorem log2_eq (hle : twoPow k ≤ x) (hlt : x < twoPow (k + 1)) : log2 x = k := by
  obtain ⟨hlow, hhigh⟩ := log2_spec (lt_of_lt_of_le (twoPow_pos k) hle)
  have h1 := twoPow_lt_iff.mp (lt_of_le_of_lt hle hhigh)
  have h2 := twoPow_lt_iff.mp (lt_of_le_of_lt hlow hlt)
  omega

theorem log2_mono (hx : 0 < x) (h : x ≤ y) : log2 x ≤ log2 y := by
  have hlow := (log2_spec hx).1
  have hhigh := (log2_spec (lt_of_lt_of_le hx h)).2
  have := twoPow_lt_iff.mp (lt_of_le_of_lt (hlow.trans h) hhigh)
  omega

theorem lastPlace_eq (h : 0 < x) : lastPlace x = max (-1074) (log2 x - 52) := by
  have habs : x.abs = x := if_pos h.le
  rw [lastPlace, habs]

/-! ## Rounding to a binary64 number -/

@[simp] theorem nearest_zero : nearest 0 = 0 := rfl

theorem nearest_eq (h : 0 < x) :
    nearest x = (roundEven (x / twoPow (lastPlace x)) : Rat) * twoPow (lastPlace x) := if_neg h.ne'

/-- A number below a power of two is not rounded beyond it. -/
theorem nearest_le_twoPow (hx : 0 < x) (h : x ≤ twoPow g) (hg : lastPlace x ≤ g) :
    nearest x ≤ twoPow g := by
  obtain ⟨m, hsplit⟩ := exists_twoPow_eq_mul hg
  rw [nearest_eq hx, hsplit]
  refine mul_le_mul_of_nonneg_right ?_ (twoPow_pos _).le
  have hround : roundEven (x / twoPow (lastPlace x)) ≤ m := by
    apply roundEven_le
    rw [div_le_iff₀ (twoPow_pos _), ← hsplit]
    exact h
  exact_mod_cast hround

/-- A number above a power of two is not rounded below it. -/
theorem twoPow_le_nearest (h : twoPow g ≤ x) (hg : lastPlace x ≤ g) : twoPow g ≤ nearest x := by
  have hx := lt_of_lt_of_le (twoPow_pos g) h
  obtain ⟨m, hsplit⟩ := exists_twoPow_eq_mul hg
  rw [nearest_eq hx, hsplit]
  refine mul_le_mul_of_nonneg_right ?_ (twoPow_pos _).le
  have hround : m ≤ roundEven (x / twoPow (lastPlace x)) := by
    apply le_roundEven
    rw [le_div_iff₀ (twoPow_pos _), ← hsplit]
    exact h
  exact_mod_cast hround

theorem nearest_nonneg (h : 0 ≤ x) : 0 ≤ nearest x := by
  rcases h.eq_or_lt with rfl | hx
  · exact le_rfl
  · rw [nearest_eq hx]
    have hround : 0 ≤ roundEven (x / twoPow (lastPlace x)) :=
      le_roundEven (by exact_mod_cast (div_pos hx (twoPow_pos _)).le)
    exact mul_nonneg (by exact_mod_cast hround) (twoPow_pos _).le

/-- Rounding keeps the order. Numbers with the same last place are rounded on one grid, and between
others there is a power of two. -/
theorem nearest_mono (hx : 0 ≤ x) (h : x ≤ y) : nearest x ≤ nearest y := by
  rcases hx.eq_or_lt with rfl | hx
  · exact nearest_nonneg h
  have hy := lt_of_lt_of_le hx h
  have hlog := log2_mono hx h
  have hxe := lastPlace_eq hx
  have hye := lastPlace_eq hy
  rcases Int.lt_or_eq_of_le (show lastPlace x ≤ lastPlace y by omega) with hlt | heq
  · have hbetween : x ≤ twoPow (log2 y) :=
      (log2_spec hx).2.le.trans (twoPow_le_iff.mpr (by omega))
    exact (nearest_le_twoPow hx hbetween (by omega)).trans
      (twoPow_le_nearest (log2_spec hy).1 (by omega))
  · rw [nearest_eq hx, nearest_eq hy, heq]
    refine mul_le_mul_of_nonneg_right ?_ (twoPow_pos _).le
    exact_mod_cast roundEven_mono (div_le_div_of_nonneg_right h (twoPow_pos _).le)

/-! ## Between two numbers -/

/-- A number with 53 binary digits, counted in units of its last place. -/
structure Significand (m : Nat) : Prop where
  low : 2 ^ 52 ≤ m
  high : m < 2 ^ 53

variable {m : Nat}

/-- From one binary64 number to the next the last place stays where it is. -/
theorem lastPlace_of_between (hm : Significand m) (he : -1074 ≤ e) (hlow : m * twoPow e ≤ x)
    (hhigh : x < (m + 1) * twoPow e) : lastPlace x = e := by
  have hpos := twoPow_pos e
  have hm1 : ((2 ^ 52 : Nat) : Rat) ≤ m := by exact_mod_cast hm.low
  have hm2 : ((m : Rat) + 1) ≤ (2 ^ 53 : Nat) := by exact_mod_cast hm.high
  have hfirst : twoPow (e + 52) ≤ x := by
    calc twoPow (e + 52) = (2 ^ 52 : Nat) * twoPow e := by
          rw [add_comm, twoPow_add]
          exact congrArg (· * twoPow e) (twoPow_ofNat 52)
      _ ≤ m * twoPow e := mul_le_mul_of_nonneg_right hm1 hpos.le
      _ ≤ x := hlow
  have hlast : x < twoPow (e + 52 + 1) := by
    calc x < (m + 1) * twoPow e := hhigh
      _ ≤ (2 ^ 53 : Nat) * twoPow e := mul_le_mul_of_nonneg_right hm2 hpos.le
      _ = twoPow (e + 52 + 1) := by
          rw [add_assoc, add_comm, twoPow_add]
          exact congrArg (· * twoPow e) (twoPow_ofNat 53).symm
  rw [lastPlace_eq (lt_of_lt_of_le (twoPow_pos _) hfirst), log2_eq hfirst hlast]
  omega

theorem nearest_between (hm : Significand m) (he : -1074 ≤ e) (hlow : m * twoPow e ≤ x)
    (hhigh : x < (m + 1) * twoPow e) : nearest x = roundEven (x / twoPow e) * twoPow e := by
  have hmpos : (0 : Rat) < m := by
    have := hm.low
    exact_mod_cast (show 0 < m by omega)
  rw [nearest_eq (lt_of_lt_of_le (mul_pos hmpos (twoPow_pos e)) hlow),
    lastPlace_of_between hm he hlow hhigh]

/-- A binary64 number is its own nearest. -/
theorem nearest_self (hm : Significand m) (he : -1074 ≤ e) :
    nearest (m * twoPow e) = m * twoPow e := by
  have hpos := twoPow_pos e
  rw [nearest_between hm he le_rfl (mul_lt_mul_of_pos_right (lt_add_one _) hpos),
    mul_div_cancel_right₀ _ hpos.ne']
  have hround : roundEven ((m : Int) : Rat) = m :=
    le_antisymm (roundEven_le le_rfl) (le_roundEven le_rfl)
  rw [Int.cast_natCast] at hround
  rw [hround, Int.cast_natCast]

/-- What lies before the middle goes no farther than the lower number. -/
theorem nearest_le_of_lt (hm : Significand m) (he : -1074 ≤ e) (hx : 0 ≤ x)
    (h : x < (m + 1 / 2) * twoPow e) : nearest x ≤ m * twoPow e := by
  have hpos := twoPow_pos e
  rcases lt_or_ge x (m * twoPow e) with hlt | hge
  · exact (nearest_mono hx hlt.le).trans_eq (nearest_self hm he)
  · have hhigh : x < (m + 1) * twoPow e :=
      h.trans (mul_lt_mul_of_pos_right (by linarith) hpos)
    rw [nearest_between hm he hge hhigh]
    refine mul_le_mul_of_nonneg_right ?_ hpos.le
    have hround : roundEven (x / twoPow e) ≤ (m : Int) := by
      apply roundEven_le_of_lt
      rw [div_lt_iff₀ hpos]
      exact_mod_cast h
    exact_mod_cast hround

/-- From the middle on everything goes to the upper number or beyond, if the lower one is odd. -/
theorem le_nearest_iff (hm : Significand m) (hodd : m % 2 = 1) (he : -1074 ≤ e) (hx : 0 ≤ x) :
    (m + 1) * twoPow e ≤ nearest x ↔ (m + 1 / 2) * twoPow e ≤ x := by
  have hpos := twoPow_pos e
  constructor
  · intro h
    by_contra hlt
    have hle := h.trans (nearest_le_of_lt hm he hx (not_le.mp hlt))
    exact absurd hle (not_le.mpr (mul_lt_mul_of_pos_right (lt_add_one _) hpos))
  · intro h
    have hmiddle : nearest ((m + 1 / 2) * twoPow e) = (m + 1) * twoPow e := by
      rw [nearest_between hm he (mul_le_mul_of_nonneg_right (by linarith) hpos.le)
        (mul_lt_mul_of_pos_right (by linarith) hpos), mul_div_cancel_right₀ _ hpos.ne']
      have hround : roundEven (((m : Int) : Rat) + 1 / 2) = m + 1 := roundEven_half (by omega)
      rw [Int.cast_natCast] at hround
      rw [hround]
      push_cast
      rfl
    have hmpos : (0 : Rat) ≤ (m + 1 / 2) * twoPow e := by positivity
    exact hmiddle.symm.trans_le (nearest_mono hmpos h)

/-! ## Up to a power of two -/

/-- The significand of the last number before a power of two. -/
theorem significand_last : Significand (2 ^ 53 - 1) := ⟨by decide, by decide⟩

/-- A power of two, as the number that comes right after the last one before it. -/
theorem twoPow_eq_succ (g : Int) :
    twoPow g = (((2 ^ 53 - 1 : Nat) : Rat) + 1) * twoPow (g - 53) := by
  rw [show g = 53 + (g - 53) by ring, twoPow_add, twoPow_eq 53, add_sub_cancel_left]
  norm_num

/-- A power of two is reached from half a last place below it on. -/
theorem twoPow_le_nearest_iff (hg : -1021 ≤ g) (hx : 0 ≤ x) :
    twoPow g ≤ nearest x ↔ twoPow g - twoPow (g - 54) ≤ x := by
  have hiff := le_nearest_iff (e := g - 53) significand_last (by decide) (by omega) hx
  have hhalf : twoPow (g - 53) = 2 * twoPow (g - 54) := by
    rw [twoPow_half, sub_sub]
    rfl
  have hmiddle : (((2 ^ 53 - 1 : Nat) : Rat) + 1 / 2) * twoPow (g - 53) =
      twoPow g - twoPow (g - 54) := by
    rw [twoPow_eq_succ g, hhalf]
    ring
  rwa [← twoPow_eq_succ, hmiddle] at hiff

/-- What is not rounded to a power of two stays a last place below it. -/
theorem nearest_le_of_lt_twoPow (hg : -1021 ≤ g) (hx : 0 ≤ x) (h : nearest x < twoPow g) :
    nearest x ≤ twoPow g - twoPow (g - 53) := by
  have hlast : ((2 ^ 53 - 1 : Nat) : Rat) * twoPow (g - 53) = twoPow g - twoPow (g - 53) := by
    rw [twoPow_eq_succ g]
    ring
  rw [← hlast]
  refine nearest_le_of_lt significand_last (by omega) hx (not_le.mp fun hle => ?_)
  have hiff := le_nearest_iff (e := g - 53) significand_last (by decide) (by omega) hx
  rw [← twoPow_eq_succ] at hiff
  exact absurd (hiff.mpr hle) (not_le.mpr h)

/-! ## Where binary64 ends -/

/-- Too small a number is rounded to zero. -/
theorem nearest_eq_zero (hx : 0 ≤ x) (h : x < twoPow (-1075)) : nearest x = 0 := by
  rcases hx.eq_or_lt with rfl | hx
  · rfl
  have hlast : lastPlace x = -1074 := by
    have := twoPow_lt_iff.mp (lt_of_le_of_lt (log2_spec hx).1 h)
    rw [lastPlace_eq hx]
    omega
  have hhalf : twoPow (-1075) = ((0 : Int) + 1 / 2) * twoPow (-1074) := by
    rw [show (-1075 : Int) = -1 + -1074 from rfl, twoPow_add, twoPow_eq (-1)]
    norm_num
  have hround : roundEven (x / twoPow (-1074)) = 0 := by
    apply le_antisymm
    · apply roundEven_le_of_lt
      rw [div_lt_iff₀ (twoPow_pos _), ← hhalf]
      exact h
    · apply le_roundEven
      rw [Int.cast_zero]
      exact (div_pos hx (twoPow_pos _)).le
  rw [nearest_eq hx, hlast, hround, Int.cast_zero, zero_mul]

/-- From here on a number is rounded to infinity. -/
def infinity : Rat := twoPow 1024 - twoPow 970

theorem isFinite_iff (hx : 0 ≤ x) : isFinite x = true ↔ x < infinity := by
  have habs : (nearest x).abs = nearest x := if_pos (nearest_nonneg hx)
  have hiff : limit ≤ nearest x ↔ infinity ≤ x := twoPow_le_nearest_iff (by decide) hx
  rw [isFinite, habs, decide_eq_true_iff, ← not_le, hiff, not_le]

end Binary64

end Metronome
