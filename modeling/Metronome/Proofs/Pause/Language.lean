-- The lines that carry a pause, as a language. A line with the safepoint marker
-- is decided by the first word behind it, and a line about a pause by its last
-- word. The word has to be a numeral, and its number becomes the pause.
import Metronome.Proofs.Literals
import Metronome.Proofs.Nearest
import Metronome.Proofs.Pause.TooLong

namespace Metronome.Pause

open Text
open Text.Numeral (Literal)
open Binary64 (IsNearest NearestInt nearest roundEven twoPow infinity)

/-! ## The language -/

/-- A word writes an amount if the binary64 number nearest to what it says is finite and not below
zero. Behind a minus only zero is that. -/
inductive Amount (word : List Char) : Rat → Prop where
  | number {negative : Bool} {digits : Nat} {exponent : Int} {x : Rat}
      (literal : Literal word (.decimal negative digits exponent))
      (rounded : IsNearest (digits * 10 ^ exponent) x) (finite : x < 2 ^ 1024)
      (notBelow : negative = true → x = 0) : Amount word x

/-- A line carries a pause of so many seconds. Milliseconds are rounded once more when they are
divided. -/
inductive Carries (line : List Char) : Rat → Prop where
  | safepoint {cs front rest word : List Char} {seconds : Rat} (trimmed : Trims line cs)
      (marked : FirstAt safepointMarker cs front rest) (first : IsFirstWord rest word)
      (amount : Amount word seconds) : Carries line seconds
  | pause {cs word : List Char} {millis seconds : Rat} (trimmed : Trims line cs)
      (unmarked : ¬ safepointMarker <:+: cs) (marked : pauseMarker <:+: cs)
      (last : IsLastWord cs (word ++ "ms".toList)) (amount : Amount word millis)
      (divided : IsNearest (millis / 1000) seconds) : Carries line seconds

/-! ## Amounts -/

variable {word line cs : List Char} {s x : Rat}

theorem nearest_lt_iff (hx : 0 ≤ x) : nearest x < 2 ^ 1024 ↔ x < infinity := by
  have hpower : twoPow 1024 = 2 ^ 1024 := Binary64.twoPow_natCast 1024
  have hiff := Binary64.twoPow_le_nearest_iff (g := 1024) (by decide) hx
  rw [← hpower, ← not_le, hiff, not_le]
  rfl

theorem amount_of_literal {negative : Bool} {digits : Nat} {exponent : Int}
    (literal : Literal word (.decimal negative digits exponent))
    (finite : Numeral.exact digits exponent < infinity)
    (notBelow : negative = true → nearest (Numeral.exact digits exponent) = 0) :
    Amount word (nearest (Numeral.exact digits exponent)) := by
  have hexact := Numeral.exact_nonneg digits exponent
  refine .number literal ?_ ((nearest_lt_iff hexact).mpr finite) notBelow
  rw [← Numeral.exact_eq]
  exact Binary64.isNearest_nearest hexact

theorem amount?_eq_some_iff : amount? word = some s ↔ Amount word s := by
  rw [amount?_eq_some_iff_read]
  constructor
  · rintro ⟨negative, digits, exponent, hread, hfinite, hminus, rfl⟩
    exact amount_of_literal (Numeral.read?_eq_some_iff.mp hread) hfinite hminus
  · rintro ⟨literal, rounded, finite, notBelow⟩
    rename_i negative digits exponent
    have hexact := Numeral.exact_nonneg digits exponent
    rw [← Numeral.exact_eq] at rounded
    obtain rfl := rounded.eq hexact
    exact ⟨negative, digits, exponent, Numeral.read?_eq_some_iff.mpr literal,
      (nearest_lt_iff hexact).mp finite, notBelow, rfl⟩

theorem Amount.nonneg (h : Amount word s) : 0 ≤ s := by
  obtain ⟨-, rounded, -, -⟩ := h
  have hnonneg := Numeral.exact_nonneg
  rw [rounded.eq (by positivity)]
  exact Binary64.nearest_nonneg (by positivity)

/-- No amount is written by nothing. -/
theorem amount?_nil : amount? [] = none := rfl

/-! ## Seconds -/

theorem seconds?_eq_some_iff : seconds? (trim line) = some s ↔ Carries line s := by
  have htrim := trims_trim line
  constructor
  · intro h
    unfold seconds? at h
    split at h
    · rename_i rest hafter
      obtain ⟨front, hfirst⟩ := after?_eq_some_iff.mp hafter
      have hword : firstWord rest ≠ [] := fun hnil => by
        rw [hnil, amount?_nil] at h
        cases h
      exact .safepoint htrim hfirst (isFirstWord_firstWord hword) (amount?_eq_some_iff.mp h)
    · rename_i hnone
      split at h
      · rename_i rest hafter
        obtain ⟨front, hpause⟩ := after?_eq_some_iff.mp hafter
        obtain ⟨millis, hmillis, rfl⟩ := Option.map_eq_some_iff.mp h
        obtain ⟨word, hending, hamount⟩ := Option.bind_eq_some_iff.mp hmillis
        have hamount := amount?_eq_some_iff.mp hamount
        have hlast := (lastWord_eq_iff (by simp)).mp (dropEnding?_eq_some_iff.mp hending)
        exact .pause htrim (after?_eq_none_iff.mp hnone) ⟨_, _, hpause.place.symm⟩ hlast hamount
          (Binary64.isNearest_nearest (div_nonneg hamount.nonneg (by norm_num)))
      · cases h
  · rintro (⟨trimmed, marked, first, amount⟩ | ⟨trimmed, unmarked, marked, last, amount, divided⟩)
    · rw [trimmed.trim_eq, seconds?, after?_eq_some_iff.mpr ⟨_, marked⟩]
      dsimp only
      rw [first.firstWord_eq, amount?_eq_some_iff.mpr amount]
    · rename_i cs word millis
      have hpause : after? pauseMarker cs ≠ none := fun h => after?_eq_none_iff.mp h marked
      obtain ⟨rest, hafter⟩ := Option.ne_none_iff_exists'.mp hpause
      rw [trimmed.trim_eq, seconds?, after?_eq_none_iff.mpr unmarked, hafter]
      dsimp only
      rw [(lastWord_eq_iff (by simp)).mpr last, dropEnding?_eq_some_iff.mpr rfl, Option.bind_some,
        amount?_eq_some_iff.mpr amount, Option.map_some,
        divided.eq (div_nonneg amount.nonneg (by norm_num))]
      rfl

theorem Carries.nonneg (h : Carries line s) : 0 ≤ s := by
  obtain ⟨x, hx, rfl⟩ := seconds?_rounded (seconds?_eq_some_iff.mpr h)
  exact Binary64.nearest_nonneg hx

/-! ## Pauses -/

theorem twoPow_64 : twoPow 64 = 2 ^ 64 := Binary64.twoPow_natCast 64

theorem ofSeconds_eq_ok_iff (hs : 0 ≤ s) (d : Duration) :
    ofSeconds s = .ok d ↔ s < 2 ^ 64 ∧ NearestInt (s * 10 ^ 9) d.nanos := by
  have hunit : (Duration.perSecond : Rat) = 10 ^ 9 := by norm_num [Duration.perSecond]
  have hround : 0 ≤ roundEven (s * 10 ^ 9) := Binary64.le_roundEven (by positivity)
  obtain ⟨nanos⟩ := d
  unfold ofSeconds
  dsimp only
  rw [twoPow_64, hunit, ← Binary64.roundEven_eq_iff]
  by_cases h : s < 2 ^ 64
  · rw [if_pos h, Except.ok.injEq, Duration.mk.injEq, and_iff_right h]
    omega
  · rw [if_neg h]
    exact ⟨fun hd => (by cases hd), fun hd => absurd hd.1 h⟩

theorem ofSeconds_eq_error_iff {fault : Fault} :
    ofSeconds s = .error fault ↔ fault = .pauseTooLong ∧ 2 ^ 64 ≤ s := by
  unfold ofSeconds
  rw [twoPow_64]
  by_cases h : s < 2 ^ 64
  · rw [if_pos h]
    exact ⟨fun hf => (by cases hf), fun hf => absurd h (not_lt.mpr hf.2)⟩
  · rw [if_neg h]
    exact ⟨fun hf => ⟨(Except.error.inj hf).symm, not_lt.mp h⟩, fun hf => by rw [hf.1]⟩

theorem ofLine_of_carries {line : String} (h : Carries line.toList s) :
    ofLine line = (ofSeconds s).map some := by
  rw [ofLine_eq, seconds?_eq_some_iff.mpr h]

/-- A line has the pause of the seconds that it carries, rounded to the nearest nanosecond. From
2^64 seconds on they are too many, and a line that carries none has no pause. -/
theorem the_language_of_pause_lines (line : String) :
    (∀ d, ofLine line = .ok (some d) ↔
      ∃ s, Carries line.toList s ∧ s < 2 ^ 64 ∧ NearestInt (s * 10 ^ 9) d.nanos) ∧
    (ofLine line = .ok none ↔ ∀ s, ¬ Carries line.toList s) ∧
    ∀ fault, ofLine line = .error fault ↔
      fault = .pauseTooLong ∧ ∃ s, Carries line.toList s ∧ 2 ^ 64 ≤ s := by
  have hcarries (s : Rat) : Carries line.toList s ↔ seconds? (trim line.toList) = some s :=
    seconds?_eq_some_iff.symm
  rw [ofLine_eq]
  cases hs : seconds? (trim line.toList) with
  | none => simp [hcarries, hs]
  | some s =>
    have hnonneg := ((hcarries s).mpr hs).nonneg
    have honly {p : Rat → Prop} : (∃ t, Carries line.toList t ∧ p t) ↔ p s := by
      simp [hcarries, hs]
    have hnone : ¬ ∀ t, ¬ Carries line.toList t := fun h => h s ((hcarries s).mpr hs)
    simp only [honly, hnone, ← ofSeconds_eq_ok_iff hnonneg, ← ofSeconds_eq_error_iff]
    cases ofSeconds s <;> simp [Except.map]

/-- A line with both markers is a safepoint line, and behind its first marker a word may follow
without white space. -/
example : ofLine "Pause Total time for which application threads were stopped:.5e-1 7ms" =
    .ok (some ⟨50000000⟩) := by decide +kernel

/-- Behind a minus only zero is an amount, also where it is what a number is rounded to. -/
example : ofLine "Pause -1E-400ms" = .ok (some ⟨0⟩) ∧ ofLine "Pause -1E-300ms" = .ok none := by
  decide +kernel

end Metronome.Pause
