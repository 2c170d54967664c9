-- Pauses that were printed. A number with a few digits behind the point is no
-- binary64 number as a rule, and is rounded once or twice on its way to a
-- duration. The whole nanoseconds lie too far apart for that to be seen.
import Metronome.Proofs.Pause.Language

namespace Metronome.Pause

open Text
open Text.Numeral (fixed)
open Binary64 (NearestInt IsNearest nearest near_nearest)

variable {places n : Nat} {x s : Rat}

/-! ## What rounding does to a printed number -/

theorem near_seconds {k : Nat} (hk : 100 * k < 2 ^ 50) :
    |((100 * k : Nat) : Rat) - nearest (k / 10 ^ 7) * 10 ^ 9| < 1 / 2 := by
  have hk' : (100 : Rat) * k < 2 ^ 50 := by exact_mod_cast hk
  have hnear := abs_le.mp (near_nearest (show (0 : Rat) ≤ k / 10 ^ 7 by positivity))
  push_cast
  rw [abs_lt]
  constructor <;> linarith

/-- The second rounding adds to the first as much again. -/
theorem near_millis {m : Nat} (hm : 1000 * m < 2 ^ 50) :
    |((1000 * m : Nat) : Rat) - nearest (nearest (m / 10 ^ 3) / 1000) * 10 ^ 9| < 1 / 2 := by
  have hm' : (1000 : Rat) * m < 2 ^ 50 := by exact_mod_cast hm
  have hmillis : (0 : Rat) ≤ m / 10 ^ 3 := by positivity
  have hfirst := abs_le.mp (near_nearest hmillis)
  have hnonneg := Binary64.nearest_nonneg hmillis
  have hsecond := abs_le.mp (near_nearest (show 0 ≤ nearest (m / 10 ^ 3) / 1000 by positivity))
  push_cast
  rw [abs_lt]
  constructor <;> linarith

/-- A duration is the whole number of nanoseconds that the seconds are next to. -/
theorem ofSeconds_of_near {nanos : Nat} (hs : 0 ≤ s) (hnanos : nanos < 2 ^ 50)
    (h : |(nanos : Rat) - s * 10 ^ 9| < 1 / 2) : ofSeconds s = .ok ⟨nanos⟩ := by
  have hnanos' : (nanos : Rat) < 2 ^ 50 := by exact_mod_cast hnanos
  refine (ofSeconds_eq_ok_iff hs _).mpr ⟨?_, ?_, fun hhalf => ?_⟩
  · linarith [(abs_lt.mp h).1]
  · exact h.le
  · exact absurd hhalf h.ne

theorem amount_fixed (hplaces : 0 < places) (hn : n < 2 ^ 50) :
    Amount (fixed places n) (nearest (n / 10 ^ places)) := by
  have hn' : (n : Rat) < 2 ^ 50 := by exact_mod_cast hn
  have hx : (0 : Rat) ≤ n / 10 ^ places := by positivity
  have hle : (n : Rat) / 10 ^ places ≤ n :=
    div_le_self (Nat.cast_nonneg n) (one_le_pow₀ (by norm_num))
  refine .number (Numeral.literal_fixed hplaces n) ?_ ?_ nofun
  · rw [zero_sub, zpow_neg, zpow_natCast, ← div_eq_mul_inv]
    exact Binary64.isNearest_nearest hx
  · have hnear := abs_le.mp (near_nearest hx)
    calc nearest (n / 10 ^ places) < 2 ^ 51 := by linarith
      _ ≤ 2 ^ 1024 := pow_le_pow_right₀ (by norm_num) (by norm_num)

/-! ## Printed lines -/

variable {front rest ending word : List Char}

theorem safepointMarker_eq : safepointMarker =
    "Total time for which application threads were stopped".toList ++ [':'] := by decide

theorem fixed_ne_nil : fixed places n ≠ [] := by simp [fixed]

theorem colon_notMem_fixed : ':' ∉ fixed places n := by
  intro h
  rcases Numeral.mem_fixed h with h | h <;> exact absurd h (by decide)

/-- A line that shows a pause in seconds. The marker ends with its only colon, so it cannot begin
in the text before. -/
theorem carries_seconds {k : Nat} (hk : k < 2 ^ 50) (hfront : ¬ safepointMarker <:+: front)
    (hrest : ∀ c ∈ rest.head?, isBlank c = true) :
    Carries (front ++ (safepointMarker ++ ' ' :: fixed 7 k) ++ rest) (nearest (k / 10 ^ 7)) := by
  have hsolid : ∀ c ∈ fixed 7 k, isBlank c = false := Numeral.solid_fixed
  have hfirst : Stops isBlank (safepointMarker ++ ' ' :: fixed 7 k) :=
    stops_cons (by decide)
  have hlast : Stops isBlank (safepointMarker ++ ' ' :: fixed 7 k).reverse := by
    have hsplit : safepointMarker ++ ' ' :: fixed 7 k = safepointMarker ++ [' '] ++ fixed 7 k := by
      simp
    rw [hsplit]
    exact stops_reverse_append _ fixed_ne_nil hsolid
  obtain ⟨blanks, kept, behind, more, rfl, rfl, -, htrims⟩ :=
    exists_trims_around front rest (by simp) hfirst hlast
  have hunmarked : ¬ safepointMarker <:+: kept := fun h =>
    hfront (h.trans (List.suffix_append _ _).isInfix)
  have hmarked : FirstAt safepointMarker (kept ++ safepointMarker ++ (' ' :: fixed 7 k ++ behind))
      kept (' ' :: fixed 7 k ++ behind) := by
    rw [safepointMarker_eq] at hunmarked ⊢
    exact firstAt_append (by decide) hunmarked
  have hword : IsFirstWord (' ' :: fixed 7 k ++ behind) (fixed 7 k) := by
    refine ⟨fixed_ne_nil, hsolid, [' '], behind, by simp, List.all_eq_true.mp (by decide),
      fun c hc => hrest c ?_⟩
    rw [List.head?_append, Option.mem_def.mp hc]
    rfl
  simp only [List.append_assoc] at htrims hmarked ⊢
  exact .safepoint htrims hmarked hword (amount_fixed (by decide) hk)

/-- A line about a pause that shows its milliseconds at the end. What is printed has no colon and
makes no safepoint marker. -/
theorem carries_millis {m : Nat} (hm : m < 2 ^ 50) (hpause : pauseMarker <:+: front)
    (hfront : ¬ safepointMarker <:+: front) (hending : ∀ c ∈ ending, isBlank c = true) :
    Carries (front ++ [' '] ++ (fixed 3 m ++ "ms".toList) ++ ending)
      (nearest (nearest (m / 10 ^ 3) / 1000)) := by
  have hsolid : ∀ c ∈ fixed 3 m ++ "ms".toList, isBlank c = false := by
    intro c hc
    rcases List.mem_append.mp hc with hc | hc
    · exact Numeral.solid_fixed c hc
    · rcases List.mem_pair.mp hc with rfl | rfl <;> decide
  obtain ⟨blanks, kept, behind, more, hfront', rfl, hblanks, htrims⟩ :=
    exists_trims_around (front ++ [' ']) ending (by simp [fixed_ne_nil]) (stops_of_forall hsolid)
      (stops_reverse_append [] (by simp [fixed_ne_nil]) hsolid)
  have hbehind : ∀ c ∈ behind, isBlank c = true := fun c hc =>
    hending c (List.mem_append_left _ hc)
  have hmarked : pauseMarker <:+: kept := by
    refine infix_of_blanks (c := 'P') hblanks (by decide) ?_
    rw [← hfront']
    exact hpause.trans (List.prefix_append _ _).isInfix
  have hunmarked : ¬ safepointMarker <:+: kept ++ (fixed 3 m ++ "ms".toList) ++ behind := by
    have hcolon : ':' ∉ ' ' :: (fixed 3 m ++ "ms".toList ++ behind) := by
      have hnot : ':' ∉ behind := fun h => absurd (hbehind ':' h) (by decide)
      simp [colon_notMem_fixed, hnot]
    -- The blanks that were cut off are put back, since nothing is known of `kept` alone.
    rw [safepointMarker_eq] at hfront ⊢
    refine fun h => not_infix_append hcolon hfront (h.trans ?_)
    rw [List.append_cons, hfront', List.append_assoc kept, List.append_assoc blanks]
    exact (List.suffix_append _ _).isInfix
  have hlast : IsLastWord (kept ++ (fixed 3 m ++ "ms".toList) ++ behind)
      (fixed 3 m ++ "ms".toList) := by
    refine ⟨by simp [fixed_ne_nil], hsolid, kept, behind, rfl, fun c hc => ?_, hbehind⟩
    have hend := congrArg List.getLast? hfront'
    rw [List.getLast?_concat, List.getLast?_append, Option.mem_def.mp hc] at hend
    obtain rfl := Option.some.inj hend
    decide
  have hmillis : 0 ≤ nearest ((m : Rat) / 10 ^ 3) := Binary64.nearest_nonneg (by positivity)
  rw [List.append_assoc kept] at htrims hunmarked hlast
  exact .pause htrims hunmarked (hmarked.trans (List.prefix_append _ _).isInfix) hlast
    (amount_fixed (by decide) hm) (Binary64.isNearest_nearest (div_nonneg hmillis (by norm_num)))

/-- Pauses that a line shows with a few digits behind the point are read back to the nanosecond: the
milliseconds at the end of a line about a pause, and the seconds behind the safepoint marker. -/
theorem printed_pauses_read_back :
    (∀ (m : Nat) (front ending : String), 1000 * m < 2 ^ 50 →
      pauseMarker <:+: front.toList → ¬ safepointMarker <:+: front.toList →
      (∀ c ∈ ending.toList, isBlank c = true) →
      ofLine (front ++ " " ++ .ofList (fixed 3 m) ++ "ms" ++ ending) = .ok (some ⟨1000 * m⟩)) ∧
    ∀ (k : Nat) (front rest : String), 100 * k < 2 ^ 50 →
      ¬ safepointMarker <:+: front.toList → (∀ c ∈ rest.toList.head?, isBlank c = true) →
      ofLine (front ++ .ofList safepointMarker ++ " " ++ .ofList (fixed 7 k) ++ rest) =
        .ok (some ⟨100 * k⟩) := by
  refine ⟨fun m front ending hm hpause hfront hending => ?_,
    fun k front rest hk hfront hrest => ?_⟩
  · have hcarries := carries_millis (show m < 2 ^ 50 by omega) hpause hfront hending
    have hline : (front ++ " " ++ .ofList (fixed 3 m) ++ "ms" ++ ending).toList =
        front.toList ++ [' '] ++ (fixed 3 m ++ "ms".toList) ++ ending.toList := by
      simp
    rw [ofLine_of_carries (hline ▸ hcarries), ofSeconds_of_near ?_ hm (near_millis hm)]
    · rfl
    · exact hcarries.nonneg
  · have hcarries := carries_seconds (show k < 2 ^ 50 by omega) hfront hrest
    have hline : (front ++ .ofList safepointMarker ++ " " ++ .ofList (fixed 7 k) ++ rest).toList =
        front.toList ++ (safepointMarker ++ ' ' :: fixed 7 k) ++ rest.toList := by
      simp
    rw [ofLine_of_carries (hline ▸ hcarries), ofSeconds_of_near ?_ hk (near_seconds hk)]
    · rfl
    · exact hcarries.nonneg

theorem the_pauses_of_two_lines_read_back :
    ofLine ("[3s] GC(7) Pause Remark" ++ " " ++ .ofList (fixed 3 3500) ++ "ms" ++ "\r\n") =
        .ok (some ⟨3500000⟩) ∧
      ofLine (" [3s] " ++ .ofList safepointMarker ++ " " ++ .ofList (fixed 7 11258999068426) ++
        " seconds, Stopping threads took: 0.0000100 seconds") =
        .ok (some ⟨1125899906842600⟩) := by
  obtain ⟨hmillis, hseconds⟩ := printed_pauses_read_back
  refine ⟨hmillis 3500 _ "\r\n" (by decide) (by decide) (by decide) ?_,
    hseconds 11258999068426 " [3s] " _ (by decide) (by decide) fun c hc => ?_⟩
  · exact List.all_eq_true.mp (by decide)
  · obtain rfl := Option.some.inj hc
    decide

end Metronome.Pause
