-- Which lines cannot be taken. Any text may stand in a log, and a line whose
-- number is too large for a duration is a fault. It is the only one: every
-- other line carries a pause or none.
import Metronome.Pause.Line
import Metronome.Proofs.Numerals

namespace Metronome.Pause

open Text
open Binary64 (twoPow nearest roundEven infinity Significand)

variable {word cs : List Char} {x s : Rat}

/-! ## What a word writes -/

/-- A word is a numeral without a minus for the number `x`, before any rounding. -/
def Writes (word : List Char) (x : Rat) : Prop :=
  ∃ digits exponent, Numeral.read? word = some (.decimal false digits exponent) ∧
    Numeral.exact digits exponent = x

theorem Writes.nonneg (h : Writes word x) : 0 ≤ x := by
  obtain ⟨digits, exponent, -, rfl⟩ := h
  exact Numeral.exact_nonneg digits exponent

/-- An amount is the number of its word, rounded. Behind a minus only zero is one. -/
theorem amount?_eq_some_iff_read : amount? word = some s ↔ ∃ negative digits exponent,
    Numeral.read? word = some (.decimal negative digits exponent) ∧
      Numeral.exact digits exponent < infinity ∧
      (negative = true → nearest (Numeral.exact digits exponent) = 0) ∧
      nearest (Numeral.exact digits exponent) = s := by
  constructor
  · intro h
    unfold amount? at h
    split at h
    · rename_i y hy
      obtain ⟨numeral, hread, hvalue⟩ := Option.bind_eq_some_iff.mp hy
      split_ifs at h with hneg
      obtain rfl := Option.some.inj h
      cases numeral with
      | notANumber => cases hvalue
      | infinite negative => cases hvalue
      | decimal negative digits exponent =>
        have hnonneg := Binary64.nearest_nonneg (Numeral.exact_nonneg digits exponent)
        rw [Numeral.value?_decimal] at hvalue
        split_ifs at hvalue with hfinite hminus
        · obtain rfl := Option.some.inj hvalue
          have hzero : nearest (Numeral.exact digits exponent) = 0 := by linarith
          exact ⟨negative, digits, exponent, hread, hfinite, fun _ => hzero, by linarith⟩
        · exact ⟨negative, digits, exponent, hread, hfinite, fun h => absurd h hminus,
            Option.some.inj hvalue⟩
    · cases h
  · rintro ⟨negative, digits, exponent, hread, hfinite, hminus, rfl⟩
    have hnonneg := Binary64.nearest_nonneg (Numeral.exact_nonneg digits exponent)
    have hvalue : (if negative then -nearest (Numeral.exact digits exponent)
        else nearest (Numeral.exact digits exponent)) =
          nearest (Numeral.exact digits exponent) := by
      split
      · rename_i h
        rw [hminus h, neg_zero]
      · rfl
    unfold amount?
    rw [hread, Option.bind_some, Numeral.value?_decimal, if_pos hfinite, hvalue]
    exact if_neg (not_lt.mpr hnonneg)

theorem amount?_of_writes (h : Writes word x) (hx : x < infinity) :
    amount? word = some (nearest x) := by
  obtain ⟨digits, exponent, hread, rfl⟩ := h
  exact amount?_eq_some_iff_read.mpr ⟨false, digits, exponent, hread, hx, nofun, rfl⟩

theorem writes_of_amount? (h : amount? word = some s) :
    s = 0 ∨ ∃ x, Writes word x ∧ x < infinity ∧ s = nearest x := by
  obtain ⟨negative, digits, exponent, hread, hfinite, hminus, rfl⟩ :=
    amount?_eq_some_iff_read.mp h
  cases negative with
  | true => exact .inl (hminus rfl)
  | false => exact .inr ⟨_, ⟨digits, exponent, hread, rfl⟩, hfinite, rfl⟩

/-- Whatever bound there is on amounts above zero, it is a bound on what words write. -/
theorem amount?_iff (word : List Char) {p : Rat → Prop} (hzero : ¬ p 0) :
    (∃ s, amount? word = some s ∧ p s) ↔ ∃ x, Writes word x ∧ x < infinity ∧ p (nearest x) := by
  constructor
  · rintro ⟨s, hs, hp⟩
    rcases writes_of_amount? hs with rfl | ⟨x, hx, hfinite, rfl⟩
    · exact absurd hp hzero
    · exact ⟨x, hx, hfinite, hp⟩
  · rintro ⟨x, hx, hfinite, hp⟩
    exact ⟨_, amount?_of_writes hx hfinite, hp⟩

/-! ## Seconds -/

/-- The seconds that a line tells of. -/
def seconds? (cs : List Char) : Option Rat :=
  match after? safepointMarker cs with
  | some rest => amount? (firstWord rest)
  | none =>
    match after? pauseMarker cs with
    | some _ => ((dropEnding? "ms".toList (lastWord cs)).bind amount?).map (Binary64.div · 1000)
    | none => none

theorem ofLine_eq (line : String) :
    ofLine line = match seconds? (trim line.toList) with
      | some s => (ofSeconds s).map some
      | none => .ok none := by
  unfold ofLine seconds? ofSafepoint ofPauseLine
  dsimp only
  cases after? safepointMarker (trim line.toList) with
  | some rest => rfl
  | none =>
    cases after? pauseMarker (trim line.toList) with
    | none => rfl
    | some _ =>
      dsimp only
      cases (dropEnding? "ms".toList (lastWord (trim line.toList))).bind amount? <;> rfl

/-- The seconds of a line are a binary64 number. -/
theorem seconds?_rounded (h : seconds? cs = some s) : ∃ x, 0 ≤ x ∧ s = nearest x := by
  have hamount {word : List Char} {s : Rat} (h : amount? word = some s) :
      ∃ x, 0 ≤ x ∧ s = nearest x := by
    rcases writes_of_amount? h with rfl | ⟨x, hx, -, rfl⟩
    · exact ⟨0, le_rfl, rfl⟩
    · exact ⟨x, hx.nonneg, rfl⟩
  unfold seconds? at h
  split at h
  · exact hamount h
  · split at h
    · obtain ⟨millis, hmillis, rfl⟩ := Option.map_eq_some_iff.mp h
      obtain ⟨word, -, hword⟩ := Option.bind_eq_some_iff.mp hmillis
      obtain ⟨x, hx, rfl⟩ := hamount hword
      exact ⟨_, div_nonneg (Binary64.nearest_nonneg hx) (by norm_num), rfl⟩
    · cases h

/-! ## Numbers that are too large -/

/-- The significand of the last number before a thousand times 2^64. -/
theorem significand_millis : Significand (125 * 2 ^ 46 - 1) := ⟨by decide, by decide⟩

/-- Milliseconds are rounded twice, once as a number and once as a thousandth of it. -/
theorem millis_iff (hx : 0 ≤ x) :
    twoPow 64 ≤ Binary64.div (nearest x) 1000 ↔ 1000 * twoPow 64 - twoPow 20 ≤ x := by
  have hlast : ((125 * 2 ^ 46 - 1 : Nat) : Rat) * twoPow 21 = 1000 * twoPow 64 - twoPow 21 := by
    rw [Binary64.twoPow_eq, Binary64.twoPow_eq]
    norm_num
  have htop : (((125 * 2 ^ 46 - 1 : Nat) : Rat) + 1) * twoPow 21 = 1000 * twoPow 64 := by
    rw [add_mul, hlast, one_mul, sub_add_cancel]
  have hmiddle : (((125 * 2 ^ 46 - 1 : Nat) : Rat) + 1 / 2) * twoPow 21 =
      1000 * twoPow 64 - twoPow 20 := by
    rw [add_mul, hlast, show (21 : Int) = 1 + 20 from rfl, Binary64.twoPow_add,
      Binary64.twoPow_eq 1]
    ring
  have hreach := Binary64.le_nearest_iff (e := 21) significand_millis (by decide) (by decide) hx
  have hbelow := Binary64.nearest_le_of_lt (e := 21) significand_millis (by decide) hx
  rw [htop, hmiddle] at hreach
  rw [hmiddle, hlast] at hbelow
  -- The milliseconds lie too far apart for the division to round one up to the end.
  have hgap : twoPow 10 * 1000 < twoPow 21 := by
    rw [Binary64.twoPow_eq, Binary64.twoPow_eq]
    norm_num
  have hnonneg := div_nonneg (Binary64.nearest_nonneg hx) (show (0 : Rat) ≤ 1000 by norm_num)
  rw [Binary64.div, Binary64.twoPow_le_nearest_iff (by decide) hnonneg,
    le_div_iff₀ (by norm_num), sub_mul, show (64 - 54 : Int) = 10 from rfl]
  constructor
  · intro h
    by_contra hlt
    have := hbelow (not_le.mp hlt)
    linarith
  · intro h
    have := hreach.mpr h
    have := Binary64.twoPow_pos 10
    linarith

/-- A line with a number that is finite, but too large for a duration. The seconds of a safepoint
line are rounded to 2^64 or more, or a thousandth of the milliseconds of a line about a pause is. -/
inductive TooLong (cs : List Char) : Prop where
  | safepoint {rest : List Char} {x : Rat} (marker : after? safepointMarker cs = some rest)
      (number : Writes (firstWord rest) x) (long : twoPow 64 - twoPow 10 ≤ x)
      (finite : x < infinity) : TooLong cs
  | pause {rest word : List Char} {x : Rat} (unmarked : after? safepointMarker cs = none)
      (marker : after? pauseMarker cs = some rest)
      (ending : dropEnding? "ms".toList (lastWord cs) = some word)
      (number : Writes word x) (long : 1000 * twoPow 64 - twoPow 20 ≤ x)
      (finite : x < infinity) : TooLong cs

theorem tooLong_iff : TooLong cs ↔ ∃ s, seconds? cs = some s ∧ twoPow 64 ≤ s := by
  have hend : ¬ twoPow 64 ≤ 0 := not_le.mpr (Binary64.twoPow_pos 64)
  have hzero : Binary64.div 0 1000 = 0 := by rw [Binary64.div, zero_div, Binary64.nearest_zero]
  have hseconds (word : List Char) := amount?_iff word (p := (twoPow 64 ≤ ·)) hend
  have hmillis (word : List Char) := amount?_iff word (p := (twoPow 64 ≤ Binary64.div · 1000))
    (by rwa [hzero])
  unfold seconds?
  constructor
  · rintro (⟨marker, number, long, finite⟩ | ⟨unmarked, marker, ending, number, long, finite⟩)
    · rw [marker]
      have hlong := (Binary64.twoPow_le_nearest_iff (by decide) number.nonneg).mpr long
      exact (hseconds _).mpr ⟨_, number, finite, hlong⟩
    · rw [unmarked, marker, ending]
      have hlong := (millis_iff number.nonneg).mpr long
      obtain ⟨s, hs, hlong⟩ := (hmillis _).mpr ⟨_, number, finite, hlong⟩
      exact ⟨_, Option.map_eq_some_iff.mpr ⟨s, hs, rfl⟩, hlong⟩
  · rintro ⟨s, hs, hlong⟩
    split at hs
    · rename_i rest marker
      obtain ⟨x, number, finite, hlong⟩ := (hseconds _).mp ⟨s, hs, hlong⟩
      exact .safepoint marker number
        ((Binary64.twoPow_le_nearest_iff (by decide) number.nonneg).mp hlong) finite
    · rename_i unmarked
      split at hs
      · rename_i rest marker
        obtain ⟨millis, hmany, rfl⟩ := Option.map_eq_some_iff.mp hs
        obtain ⟨word, ending, hword⟩ := Option.bind_eq_some_iff.mp hmany
        obtain ⟨x, number, finite, hlong⟩ := (hmillis _).mp ⟨millis, hword, hlong⟩
        exact .pause unmarked marker ending number ((millis_iff number.nonneg).mp hlong) finite
      · cases hs

/-! ## Durations -/

theorem ofSeconds_of_le (h : twoPow 64 ≤ s) : ofSeconds s = .error .pauseTooLong :=
  if_neg (not_lt.mpr h)

/-- Seconds that are not too many make a duration whose seconds fit. -/
theorem ofSeconds_of_lt (hx : 0 ≤ x) (h : nearest x < twoPow 64) :
    ∃ d, ofSeconds (nearest x) = .ok d ∧ d.seconds ≤ Unsigned.greatest := by
  refine ⟨_, if_pos h, ?_⟩
  have hlast : nearest x ≤ (2 ^ 64 - 2 ^ 11 : Int) := by
    refine (Binary64.nearest_le_of_lt_twoPow (by decide) hx h).trans_eq ?_
    rw [show (64 - 53 : Int) = 11 from rfl, Binary64.twoPow_eq, Binary64.twoPow_eq]
    norm_num
  have hround : roundEven (nearest x * (Duration.perSecond : Rat)) ≤
      (2 ^ 64 - 2 ^ 11) * (Duration.perSecond : Int) := by
    apply Binary64.roundEven_le
    push_cast at hlast ⊢
    exact mul_le_mul_of_nonneg_right hlast (by norm_num)
  have hgreatest : Unsigned.greatest = 2 ^ 64 - 1 := rfl
  unfold Duration.perSecond at hround
  simp only [Duration.seconds, Duration.perSecond, hgreatest]
  omega

/-- A line of a log is a fault exactly if its number is too large. From every other text comes a
pause or none, and a pause is a duration. -/
theorem only_a_number_too_large_is_a_fault (line : String) :
    (TooLong (trim line.toList) ∧ ofLine line = .error .pauseTooLong) ∨
      (¬ TooLong (trim line.toList) ∧
        ∃ pause, ofLine line = .ok pause ∧ ∀ d ∈ pause, d.seconds ≤ Unsigned.greatest) := by
  rw [ofLine_eq, tooLong_iff]
  cases hs : seconds? (trim line.toList) with
  | none => exact .inr ⟨by simp, none, rfl, by simp⟩
  | some s =>
    rcases le_or_gt (twoPow 64) s with hle | hlt
    · refine .inl ⟨⟨s, rfl, hle⟩, ?_⟩
      dsimp only
      rw [ofSeconds_of_le hle]
      rfl
    · obtain ⟨x, hx, rfl⟩ := seconds?_rounded hs
      obtain ⟨d, hd, hfits⟩ := ofSeconds_of_lt hx hlt
      refine .inr ⟨?_, some d, ?_, ?_⟩
      · rintro ⟨_, hs, hle⟩
        obtain rfl := Option.some.inj hs
        exact absurd hlt (not_lt.mpr hle)
      · dsimp only
        rw [hd]
        rfl
      · intro _ hmem
        obtain rfl := Option.mem_some_iff.mp hmem
        exact hfits

/-- One millisecond less makes the longest pause there is. -/
example : ofLine "Pause 18446744073709550567424ms" = .error .pauseTooLong ∧
    ofLine "Pause 18446744073709550567423ms" =
      .ok (some (.ofParts 18446744073709549568 0)) := by decide +kernel

/-- A finite number that is not below zero can be too large. -/
theorem a_finite_number_can_be_too_large :
    ofLine "Total time for which application threads were stopped: 1e300 seconds" =
      .error .pauseTooLong := by decide +kernel

end Metronome.Pause
