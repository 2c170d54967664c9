-- Where a percentile stands. Its place in the list is the product of two rounded
-- numbers, cut to a whole one. As long as the list is not too long, all rounding
-- together moves it by less than a thousandth of a place. So of a percentile of
-- so many thousandths, that part of the list is not above it, and no more is
-- below it, even where the place comes out one too low.
import Metronome.TickLog
import Metronome.Proofs.Nearest
import Mathlib.Data.List.Sort

namespace Metronome

/-! ## Rounded quantiles -/

namespace Binary64

theorem truncate_mono {x y : Rat} (h : x ≤ y) : truncate x ≤ truncate y := by
  have hfloor : x.floor ≤ y.floor := Rat.le_floor_iff.mpr ((Rat.le_floor_iff.mp le_rfl).trans h)
  unfold truncate Unsigned.clamp
  omega

/-- What is cut off is less than one. -/
theorem truncate_spec {x : Rat} (hx : 0 ≤ x) (h : x < 2 ^ 53) :
    (truncate x : Rat) ≤ x ∧ x < truncate x + 1 := by
  have hlow : 0 ≤ x.floor := Rat.le_floor_iff.mpr (by exact_mod_cast hx)
  have hhigh : x.floor < 2 ^ 53 := Rat.floor_lt_iff.mpr (by exact_mod_cast h)
  have hcut : ((truncate x : Nat) : Int) = x.floor := by
    unfold truncate Unsigned.clamp Unsigned.greatest
    omega
  rw [← Int.cast_natCast, hcut]
  refine ⟨Rat.le_floor_iff.mp le_rfl, ?_⟩
  have hnext : x < ((x.floor + 1 : Int) : Rat) := Rat.floor_lt_iff.mp (Int.lt_succ _)
  exact_mod_cast hnext

end Binary64

open Binary64

variable {n s t : Nat}

theorem thousandths_eq (ht : t ≤ 1000) : thousandths t = nearest (t / 1000) := by
  rw [thousandths, div, ofInt, Int.cast_natCast, nearest_natCast (by omega)]

theorem thousandths_nonneg (t : Nat) : 0 ≤ thousandths t :=
  nearest_nonneg (div_nonneg (nearest_nonneg (Nat.cast_nonneg t)) (by norm_num))

theorem thousandths_mono (h : s ≤ t) : thousandths s ≤ thousandths t := by
  have hcast : ((s : Int) : Rat) ≤ (t : Int) := by exact_mod_cast h
  have hnonneg : (0 : Rat) ≤ (s : Int) := by exact_mod_cast Nat.cast_nonneg s
  refine nearest_mono (div_nonneg (nearest_nonneg hnonneg) (by norm_num)) ?_
  exact div_le_div_of_nonneg_right (nearest_mono hnonneg hcast) (by norm_num)

theorem near_thousandths (ht : t ≤ 1000) :
    |thousandths t - t / 1000| ≤ 1 / 2 ^ 53 + 1 / 10 ^ 30 := by
  have ht' : (t : Rat) ≤ 1000 := by exact_mod_cast ht
  have hnear := near_nearest (show (0 : Rat) ≤ t / 1000 by positivity)
  rw [thousandths_eq ht]
  linarith

/-- The quantile is rounded and the product is rounded again, and still the place moves by less than
a thousandth. -/
theorem near_place (hn : n < 2 ^ 40) (ht : t ≤ 1000) :
    |mul (ofInt n) (thousandths t) - n * t / 1000| < 1 / 1000 := by
  have hn' : (n : Rat) ≤ 2 ^ 40 := by exact_mod_cast hn.le
  have ht' : (t : Rat) ≤ 1000 := by exact_mod_cast ht
  have hn0 : (0 : Rat) ≤ n := Nat.cast_nonneg n
  have hquantile := near_thousandths ht
  have hquantile0 := thousandths_nonneg t
  rw [mul, ofInt, Int.cast_natCast, nearest_natCast (by omega)]
  generalize thousandths t = q at hquantile hquantile0 ⊢
  have hproduct : |n * q - n * t / 1000| ≤ 2 ^ 40 * (1 / 2 ^ 53 + 1 / 10 ^ 30) := by
    have hfactor : n * q - n * t / 1000 = n * (q - t / 1000) := by ring
    rw [hfactor, abs_mul, abs_of_nonneg hn0]
    exact mul_le_mul hn' hquantile (abs_nonneg _) (by norm_num)
  have hexact : (n : Rat) * t / 1000 ≤ 2 ^ 40 := by
    rw [div_le_iff₀ (by norm_num)]
    exact mul_le_mul hn' ht' (Nat.cast_nonneg t) (by norm_num)
  have hrounded := near_nearest (mul_nonneg hn0 hquantile0)
  obtain ⟨hp1, hp2⟩ := abs_le.mp hproduct
  obtain ⟨hr1, hr2⟩ := abs_le.mp hrounded
  rw [abs_lt]
  constructor <;> linarith

/-! ## The place of a percentile -/

/-- A place is a whole number, and a thousandth of a place is too little to move it past another
number of thousandths. -/
theorem quantileRank_spec (hn : n < 2 ^ 40) (ht : t ≤ 1000) :
    1000 * quantileRank n (thousandths t) ≤ t * n ∧
      t * n ≤ 1000 * (quantileRank n (thousandths t) + 1) := by
  have hnear := near_place hn ht
  have hnonneg : 0 ≤ mul (ofInt n) (thousandths t) :=
    nearest_nonneg (mul_nonneg (nearest_nonneg (by exact_mod_cast Nat.cast_nonneg n))
      (thousandths_nonneg t))
  unfold quantileRank
  generalize mul (ofInt n) (thousandths t) = y at hnear hnonneg ⊢
  obtain ⟨hlow, hhigh⟩ := abs_lt.mp hnear
  have hlong : (n : Rat) * t / 1000 < 2 ^ 40 := by
    have hle : n * t ≤ n * 1000 := Nat.mul_le_mul_left n ht
    rw [div_lt_iff₀ (by norm_num)]
    exact_mod_cast (show n * t < 2 ^ 40 * 1000 by omega)
  obtain ⟨hk, hk'⟩ := truncate_spec hnonneg (by linarith)
  generalize truncate y = k at hk hk' ⊢
  have hfirst : ((1000 * k : Nat) : Rat) < (t * n + 1 : Nat) := by
    push_cast
    linarith
  have hsecond : ((t * n : Nat) : Rat) < (1000 * (k + 1) + 1 : Nat) := by
    push_cast
    linarith
  exact ⟨Nat.lt_succ_iff.mp (by exact_mod_cast hfirst),
    Nat.lt_succ_iff.mp (by exact_mod_cast hsecond)⟩

theorem quantileRank_mono (n : Nat) (h : s ≤ t) :
    quantileRank n (thousandths s) ≤ quantileRank n (thousandths t) := by
  have hn : 0 ≤ ofInt n := nearest_nonneg (by exact_mod_cast Nat.cast_nonneg n)
  refine truncate_mono (nearest_mono (mul_nonneg hn (thousandths_nonneg s)) ?_)
  exact mul_le_mul_of_nonneg_left (thousandths_mono h) hn

section List

variable {α : Type} {l k : List α} {i : Nat} {v w : α} {quantile : Rat}

/-- Every list with a member has percentiles. -/
theorem exists_percentile? (hne : l ≠ []) (quantile : Rat) :
    ∃ v, percentile? l quantile = some v := by
  have hpos := List.length_pos_iff.mpr hne
  exact ⟨_, List.getElem?_eq_getElem (by omega)⟩

theorem mem_of_percentile? (h : percentile? l quantile = some v) : v ∈ l := List.mem_of_getElem? h

/-! ## Ascending lists -/

variable [LinearOrder α]

/-- Lists with the same members become the same list once they are sorted. -/
theorem mergeSort_eq_of_perm (h : l.Perm k) : l.mergeSort (· ≤ ·) = k.mergeSort (· ≤ ·) :=
  ((List.mergeSort_perm l _).trans (h.trans (List.mergeSort_perm k _).symm)).eq_of_pairwise'
    (List.pairwise_mergeSort' (· ≤ ·) l) (List.pairwise_mergeSort' (· ≤ ·) k)

/-- What is below a member comes before it. -/
theorem countP_lt_le (h : l.Pairwise (· ≤ ·)) (hi : l[i]? = some v) : l.countP (· < v) ≤ i := by
  obtain ⟨hlt, rfl⟩ := List.getElem?_eq_some_iff.mp hi
  have hback : (l.drop i).countP (· < l[i]) = 0 := by
    rw [List.drop_eq_getElem_cons hlt, List.countP_eq_zero]
    have hpart : (l[i] :: l.drop (i + 1)).Pairwise (· ≤ ·) := by
      rw [← List.drop_eq_getElem_cons hlt]
      exact h.drop
    intro a ha
    rw [decide_eq_true_iff, not_lt]
    rcases List.mem_cons.mp ha with rfl | ha
    · exact le_rfl
    · exact List.rel_of_pairwise_cons hpart ha
  calc l.countP (· < l[i]) = (l.take i ++ l.drop i).countP (· < l[i]) := by
        rw [List.take_append_drop]
    _ = (l.take i).countP (· < l[i]) := by rw [List.countP_append, hback, Nat.add_zero]
    _ ≤ i := List.countP_le_length.trans (List.length_take_le i l)

/-- What comes before a member is not above it. -/
theorem lt_countP_le (h : l.Pairwise (· ≤ ·)) (hi : l[i]? = some v) : i < l.countP (· ≤ v) := by
  obtain ⟨hlt, rfl⟩ := List.getElem?_eq_some_iff.mp hi
  have hfront : (l.take (i + 1)).countP (· ≤ l[i]) = i + 1 := by
    rw [List.countP_eq_length.mpr, List.length_take_of_le hlt]
    intro a ha
    obtain ⟨j, hj, rfl⟩ := List.mem_iff_getElem.mp ha
    rw [List.length_take_of_le hlt] at hj
    rw [List.getElem_take, decide_eq_true_iff]
    rcases Nat.lt_or_eq_of_le (Nat.lt_succ_iff.mp hj) with hj | rfl
    · exact List.pairwise_iff_getElem.mp h j i _ hlt hj
    · exact le_rfl
  have hle : (l.take (i + 1)).countP (· ≤ l[i]) ≤ l.countP (· ≤ l[i]) :=
    (List.take_sublist _ _).countP_le
  omega

theorem percentile?_mono (h : l.Pairwise (· ≤ ·)) (hst : s ≤ t)
    (hs : percentile? l (thousandths s) = some v) (ht : percentile? l (thousandths t) = some w) :
    v ≤ w := by
  obtain ⟨hi, rfl⟩ := List.getElem?_eq_some_iff.mp hs
  obtain ⟨hj, rfl⟩ := List.getElem?_eq_some_iff.mp ht
  have hrank := quantileRank_mono l.length hst
  exact h.sortedLE.getElem_le_getElem_of_le (by omega)

/-- So many thousandths of the list are not above `v`, and no more are below. -/
structure StandsAt (l : List α) (t : Nat) (v : α) : Prop where
  mem : v ∈ l
  upTo : t * l.length ≤ 1000 * l.countP (· ≤ v)
  below : 1000 * l.countP (· < v) ≤ t * l.length

theorem standsAt_percentile (h : l.Pairwise (· ≤ ·)) (hlen : l.length < 2 ^ 40) (ht : t ≤ 1000)
    (hv : percentile? l (thousandths t) = some v) : StandsAt l t v := by
  obtain ⟨hlow, hhigh⟩ := quantileRank_spec hlen ht
  have hbelow := countP_lt_le h hv
  have hupTo := lt_countP_le h hv
  have hall : t * l.length ≤ 1000 * l.length := Nat.mul_le_mul_right _ ht
  exact ⟨mem_of_percentile? hv, by omega, by omega⟩

/-- The order of the list does not matter for that. -/
theorem StandsAt.of_perm (h : StandsAt l t v) (hperm : l.Perm k) : StandsAt k t v where
  mem := hperm.mem_iff.mp h.mem
  upTo := by
    rw [← hperm.length_eq, ← hperm.countP_eq]
    exact h.upTo
  below := by
    rw [← hperm.length_eq, ← hperm.countP_eq]
    exact h.below

end List

theorem pairwise_ascending (l : List Nat) : (ascending l).Pairwise (· ≤ ·) :=
  List.pairwise_mergeSort' (· ≤ ·) l

/-! ## The figures of a log -/

namespace TickLog

variable {log : TickLog}

/-- A log behind whatever happened to it, one thing after another. -/
inductive Reached : TickLog → Prop
  | make (nominal : Duration) (pauses : Pause.Source) (capacity : Nat) :
    Reached (make nominal pauses capacity)
  | record {log : TickLog} (h : Reached log) (nanos : Nat) : Reached (log.record nanos)
  | begin {log : TickLog} (h : Reached log) : Reached log.begin
  | finish {log : TickLog} (h : Reached log) (nanos : Nat) : Reached (log.finish nanos)
  | reset {log : TickLog} (h : Reached log) : Reached log.reset

theorem record_ring (log : TickLog) (nanos : Nat) :
    (log.record nanos).ring = log.ring.set (log.ticks % log.ring.length) nanos := by
  unfold record
  dsimp only
  split <;> rfl

theorem record_longest (log : TickLog) (nanos : Nat) :
    (log.record nanos).longest = max log.longest nanos := by
  unfold record
  dsimp only
  split <;> rfl

/-- No place of the ring holds more than the longest dispatch. -/
def Topped (log : TickLog) : Prop := ∀ nanos ∈ log.ring, nanos ≤ log.longest

theorem Topped.record (h : log.Topped) (nanos : Nat) : (log.record nanos).Topped := by
  intro m hm
  rw [record_ring] at hm
  rw [record_longest]
  rcases List.mem_or_eq_of_mem_set hm with hm | rfl
  · exact (h m hm).trans (le_max_left _ _)
  · exact le_max_right _ _

theorem Topped.finish (h : log.Topped) (nanos : Nat) : (log.finish nanos).Topped := by
  unfold TickLog.finish
  split
  · have hidle : ({ log with timing := false } : TickLog).Topped := h
    exact hidle.record nanos
  · exact h

theorem Reached.topped (h : log.Reached) : log.Topped := by
  induction h with
  | make nominal pauses capacity =>
    intro nanos hnanos
    rw [List.eq_of_mem_replicate hnanos]
    exact Nat.zero_le _
  | record _ nanos ih => exact ih.record nanos
  | begin _ ih => exact ih
  | finish _ nanos ih => exact ih.finish nanos
  | reset _ _ =>
    intro nanos hnanos
    obtain ⟨_, -, rfl⟩ := List.mem_map.mp hnanos
    exact Nat.zero_le _

/-- What a log shows stands in order. -/
theorem Reached.stats_le (h : log.Reached) {s : Stats} (hs : log.stats = .ok s) :
    s.p95 ≤ s.p99 ∧ s.p99 ≤ s.longest := by
  unfold stats at hs
  dsimp only at hs
  cases haverage : average (ascending log.kept) with
  | error f =>
    rw [haverage] at hs
    cases hs
  | ok mean =>
    rw [haverage] at hs
    cases hs
    dsimp only
    rcases eq_or_ne (ascending log.kept) [] with hnil | hne
    · rw [hnil]
      exact ⟨Nat.le_refl 0, Nat.zero_le _⟩
    · obtain ⟨v, hv⟩ := exists_percentile? hne (thousandths 950)
      obtain ⟨w, hw⟩ := exists_percentile? hne (thousandths 990)
      rw [hv, hw]
      have hmem : w ∈ log.ring :=
        List.mem_of_mem_take (List.mem_mergeSort.mp (mem_of_percentile? hw))
      have hle : v ≤ w := percentile?_mono (s := 950) (pairwise_ascending _) (by decide) hv hw
      exact ⟨hle, h.topped w hmem⟩

end TickLog

/-! ## The law -/

/-- A percentile of an ascending list is one of its members. So many thousandths of the list are not
above it, no more are below it, and one of more thousandths is not less. What a log shows of its
dispatches is in that order, up to the longest. -/
theorem a_percentile_stands_at_its_place :
    (∀ l : List Nat, l.Pairwise (· ≤ ·) → 1 ≤ l.length → l.length < 2 ^ 40 →
      ∀ t : Nat, t ≤ 1000 → ∃ v, percentile? l (thousandths t) = some v ∧ StandsAt l t v ∧
        ∀ (s : Nat) (w : Nat), s ≤ t → percentile? l (thousandths s) = some w → w ≤ v) ∧
    ∀ log : TickLog, log.Reached → ∀ s, log.stats = .ok s → s.p95 ≤ s.p99 ∧ s.p99 ≤ s.longest := by
  refine ⟨fun l hsorted hpos hlen t ht => ?_, fun log hlog s => hlog.stats_le⟩
  obtain ⟨v, hv⟩ := exists_percentile? (List.length_pos_iff.mp hpos) (thousandths t)
  exact ⟨v, hv, standsAt_percentile hsorted hlen ht hv,
    fun s w hst hw => percentile?_mono hsorted hst hw hv⟩

/-- Three dispatches are kept, and the longest of all is one of them. -/
def TickLog.busy : TickLog :=
  ((((make ⟨10⟩ (.prepared [7]) 3).record 80).begin.finish 90).record 30).record 40

theorem TickLog.busy_reached : busy.Reached :=
  ((((Reached.make _ _ _).record 80).begin.finish 90).record 30).record 40

/-- Of fifty members, 29 are 580 thousandths, but the rounded product is less than 29. The member
at place 28 is still high enough, since 29 members are not above it. -/
theorem a_percentile_of_fifty_stands_one_lower :
    (percentile? (List.range 50) (thousandths 580) = some 28 ∧ StandsAt (List.range 50) 580 28 ∧
      580 * 50 = 1000 * (List.range 50).countP (· ≤ 28)) ∧
    ∃ s, TickLog.busy.stats = .ok s ∧ s.average = 53 ∧ s.p95 ≤ s.p99 ∧ s.p99 ≤ s.longest := by
  obtain ⟨hlists, hlogs⟩ := a_percentile_stands_at_its_place
  constructor
  · have hrank : percentile? (List.range 50) (thousandths 580) = some 28 := by decide +kernel
    obtain ⟨v, hv, hstands, -⟩ := hlists (List.range 50) (by decide) (by decide) (by decide) 580
      (by decide)
    obtain rfl : v = 28 := Option.some.inj (hv.symm.trans hrank)
    exact ⟨hrank, hstands, by decide⟩
  · have hkept : TickLog.busy.kept.Perm [30, 40, 90] := by decide
    have hsorted : ascending TickLog.busy.kept = [30, 40, 90] :=
      (mergeSort_eq_of_perm hkept).trans (List.mergeSort_of_pairwise (by decide))
    have hstats : TickLog.busy.stats = .ok ⟨4, 4, 40, 53, 90, 90, 90, 28⟩ := by
      unfold TickLog.stats
      rw [hsorted]
      decide +kernel
    exact ⟨_, hstats, rfl, hlogs _ TickLog.busy_reached _ hstats⟩

end Metronome
