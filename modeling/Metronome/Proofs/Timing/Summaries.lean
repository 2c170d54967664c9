-- What a summary tells of intervals. It goes over them three times: for the
-- least and the greatest, for their distances from the period, and along the
-- sorted distances. The three agree: the distances lie as far apart from the
-- period as the least and the greatest do, and their order does not matter.
import Metronome.Timing.Jitter
import Metronome.Proofs.Timing.Percentiles
import Metronome.Proofs.Timing.Successions
import Mathlib.Algebra.Order.Group.Unbundled.Abs
import Mathlib.Order.Bounds.Basic

namespace Metronome

/-! ## The ends of a list -/

section Ends

variable {l k : List Int}

theorem ne_nil_of_perm {α : Type} {l k : List α} (h : l.Perm k) (hne : k ≠ []) : l ≠ [] := by
  rintro rfl
  exact hne h.nil_eq.symm

theorem isLeast_min? (hne : l ≠ []) : IsLeast {a | a ∈ l} (l.min?.getD 0) := by
  cases hmin : l.min? with
  | none => exact absurd (List.min?_eq_none_iff.mp hmin) hne
  | some a => exact List.min?_eq_some_iff.mp hmin

theorem isGreatest_max? (hne : l ≠ []) : IsGreatest {a | a ∈ l} (l.max?.getD 0) := by
  cases hmax : l.max? with
  | none => exact absurd (List.max?_eq_none_iff.mp hmax) hne
  | some a => exact List.max?_eq_some_iff.mp hmax

/-- The last of a sorted list is the greatest. -/
theorem isGreatest_getLast? (hne : l ≠ []) :
    IsGreatest {a | a ∈ l} ((l.mergeSort (· ≤ ·)).getLast?.getD 0) := by
  have hsorted : l.mergeSort (· ≤ ·) ≠ [] := ne_nil_of_perm (List.mergeSort_perm l _) hne
  rw [List.getLast?_eq_some_getLast hsorted, Option.getD_some]
  refine ⟨List.mem_mergeSort.mp (List.getLast_mem hsorted), fun a ha => ?_⟩
  exact (List.pairwise_mergeSort' (· ≤ ·) l).rel_getLast (List.mem_mergeSort.mpr ha)

/-- No number of a list is farther from another number than the least one or the greatest one. -/
theorem isGreatest_distance {least greatest : Int} (period : Int)
    (hleast : IsLeast {a | a ∈ l} least) (hgreatest : IsGreatest {a | a ∈ l} greatest) :
    IsGreatest {d | d ∈ l.map fun a => |a - period|}
      (max |least - period| |greatest - period|) := by
  constructor
  · rcases max_choice |least - period| |greatest - period| with h | h <;> rw [h]
    · exact List.mem_map.mpr ⟨least, hleast.1, rfl⟩
    · exact List.mem_map.mpr ⟨greatest, hgreatest.1, rfl⟩
  · intro d hd
    obtain ⟨a, ha, rfl⟩ := List.mem_map.mp hd
    exact abs_le_max_abs_abs (sub_le_sub_right (hleast.2 ha) _)
      (sub_le_sub_right (hgreatest.2 ha) _)

theorem setOf_mem_of_perm (h : l.Perm k) : {a | a ∈ l} = {a | a ∈ k} := Set.ext fun _ => h.mem_iff

end Ends

/-! ## Nothing leaves its range -/

variable {i : Interval} {stamps : List Stamp} {is others : List Interval} {period : Int}
  {pause : Nat}

/-- The time from one tick to the next, as an exact number. -/
def Interval.span (i : Interval) : Int := i.stop.nanos - i.start.nanos

/-- An interval that can be measured, and whose clock did not go back. -/
structure Interval.Timely (i : Interval) : Prop where
  nonneg : 0 ≤ i.span
  fits : Signed.Fits i.span

theorem Interval.Timely.arrival (h : i.Timely) : i.arrival = .ok i.span :=
  Signed.keep_of_fits h.fits

/-- Between stamps that are not negative there are only such intervals. -/
theorem timely_of_mem_intervals (hstamps : ∀ s ∈ stamps, 0 ≤ s.nanos ∧ Signed.Fits s.nanos)
    (his : intervals stamps = .ok is) (hi : i ∈ is) : i.Timely := by
  obtain ⟨a, ha, b, hb, hmade⟩ := between_of_mem_intervals his hi
  obtain ⟨rfl, hformed, -⟩ := Interval.between?_eq_some_iff.mp hmade
  obtain ⟨ha0, -⟩ := hstamps a ha
  obtain ⟨-, hb⟩ := hstamps b hb
  have hforward : a.nanos ≤ b.nanos := hformed.forward
  have hspan : (⟨a, b⟩ : Interval).span = b.nanos - a.nanos := rfl
  unfold Signed.Fits Signed.least Signed.greatest at hb
  constructor <;> rw [hspan]
  · exact Int.sub_nonneg_of_le hforward
  · unfold Signed.Fits Signed.least Signed.greatest
    omega

/-- Two numbers that are not negative lie near enough for their distance to have a number. -/
theorem Jitter.distance_eq {a : Int} (ha : 0 ≤ a) (hfits : Signed.Fits a) (hperiod : 0 ≤ period)
    (hperiodFits : Signed.Fits period) : distance period a = .ok |a - period| := by
  unfold Signed.Fits Signed.least Signed.greatest at hfits hperiodFits
  have hsub : Signed.Fits (a - period) := by
    unfold Signed.Fits Signed.least Signed.greatest
    omega
  have hmagnitude : Signed.Fits ((a - period).natAbs : Int) := by
    unfold Signed.Fits Signed.least Signed.greatest
    omega
  rw [distance, Signed.sub, Signed.keep_of_fits hsub]
  exact (Signed.keep_of_fits hmagnitude).trans (congrArg _ (Int.natCast_natAbs _))

/-- Where every step succeeds, so do all of them together. -/
theorem mapM_eq_ok {α β : Type} {f : α → Except Fault β} {g : α → β} {l : List α}
    (h : ∀ a ∈ l, f a = .ok (g a)) : l.mapM f = .ok (l.map g) := by
  induction l with
  | nil => rfl
  | cons a l ih =>
    rw [List.mapM_cons, h a List.mem_cons_self, ih fun b hb => h b (List.mem_cons_of_mem a hb)]
    rfl

namespace Jitter

/-- The distances of intervals from the period, as exact numbers. -/
def distances (is : List Interval) (period : Int) : List Int :=
  (is.map Interval.span).map fun a => |a - period|

theorem ofIntervals_eq (hne : is ≠ []) (his : ∀ i ∈ is, i.Timely) (hperiod : 0 ≤ period)
    (hfits : Signed.Fits period) (pause : Nat) :
    ofIntervals is period pause =
      .ok (ofArrivals (is.map Interval.span) (distances is period) period pause) := by
  have hdistances : ∀ a ∈ is.map Interval.span, distance period a = .ok |a - period| := by
    intro a ha
    obtain ⟨i, hi, rfl⟩ := List.mem_map.mp ha
    exact distance_eq (his i hi).nonneg (his i hi).fits hperiod hfits
  rw [ofIntervals, if_neg hne, mapM_eq_ok fun i hi => (his i hi).arrival]
  show ((is.map Interval.span).mapM (distance period) >>= _) = _
  rw [mapM_eq_ok hdistances]
  rfl

/-! ## The law -/

/-- What a summary says of these intervals. -/
structure TellsOf (is : List Interval) (period : Int) (pause : Nat) (j : Jitter) : Prop where
  samples : j.samples = is.length
  given : j.period = period ∧ j.pause = pause
  between : ∀ i ∈ is, i.arrival = .ok i.span ∧ j.least ≤ i.span ∧ i.span ≤ j.greatest
  least : ∃ i ∈ is, j.least = i.span
  greatest : ∃ i ∈ is, j.greatest = i.span
  greatestDeviation : j.greatestDeviation = max |j.least - period| |j.greatest - period|
  p99Deviation : ∃ i ∈ is, j.p99Deviation = |i.span - period|
  p99Deviation_le : j.p99Deviation ≤ j.greatestDeviation
  /-- Among not too many distances it stands where it should. -/
  place : is.length < 2 ^ 40 → StandsAt (distances is period) 990 j.p99Deviation

theorem tellsOf_ofArrivals (hne : is ≠ []) (his : ∀ i ∈ is, i.Timely) (period : Int) (pause : Nat) :
    TellsOf is period pause
      (ofArrivals (is.map Interval.span) (distances is period) period pause) := by
  have hspans : is.map Interval.span ≠ [] := mt List.map_eq_nil_iff.mp hne
  have hdistances : distances is period ≠ [] := mt List.map_eq_nil_iff.mp hspans
  have hleast := isLeast_min? hspans
  have hgreatest := isGreatest_max? hspans
  have hlast := isGreatest_getLast? hdistances
  have hsorted := List.pairwise_mergeSort' (· ≤ ·) (distances is period)
  have hperm := List.mergeSort_perm (distances is period) fun a b => decide (a ≤ b)
  obtain ⟨p99, hp99⟩ := exists_percentile? (ne_nil_of_perm hperm hdistances) (thousandths 990)
  have hmem : p99 ∈ distances is period := hperm.mem_iff.mp (mem_of_percentile? hp99)
  have hfigure : (ofArrivals (is.map Interval.span) (distances is period) period pause).p99Deviation
      = p99 := by
    rw [ofArrivals]
    exact congrArg (·.getD 0) hp99
  constructor
  case samples => exact List.length_map _
  case given => exact ⟨rfl, rfl⟩
  case between =>
    intro i hi
    have hmem : i.span ∈ is.map Interval.span := List.mem_map_of_mem hi
    exact ⟨(his i hi).arrival, hleast.2 hmem, hgreatest.2 hmem⟩
  case least =>
    obtain ⟨i, hi, hspan⟩ := List.mem_map.mp hleast.1
    exact ⟨i, hi, hspan.symm⟩
  case greatest =>
    obtain ⟨i, hi, hspan⟩ := List.mem_map.mp hgreatest.1
    exact ⟨i, hi, hspan.symm⟩
  case greatestDeviation => exact hlast.unique (isGreatest_distance period hleast hgreatest)
  case p99Deviation =>
    obtain ⟨a, ha, hdistance⟩ := List.mem_map.mp hmem
    obtain ⟨i, hi, rfl⟩ := List.mem_map.mp ha
    exact ⟨i, hi, hfigure.trans hdistance.symm⟩
  case p99Deviation_le =>
    rw [hfigure]
    exact hlast.2 hmem
  case place =>
    intro hlen
    have hlength : ((distances is period).mergeSort (· ≤ ·)).length = is.length := by
      simp [distances]
    rw [hfigure]
    exact (standsAt_percentile hsorted (by omega) (by decide) hp99).of_perm hperm

/-- What is left of a summary without the two figures for which rounded numbers are added up in the
order of the intervals. -/
def steady (j : Jitter) : Jitter := { j with mean := 0, standardDeviation := 0 }

theorem steady_of_perm (hne : is ≠ []) (hperm : others.Perm is) (period : Int) (pause : Nat) :
    (ofArrivals (others.map Interval.span) (distances others period) period pause).steady =
      (ofArrivals (is.map Interval.span) (distances is period) period pause).steady := by
  have hspans : (others.map Interval.span).Perm (is.map Interval.span) := hperm.map _
  have hsorted : (distances others period).mergeSort (· ≤ ·) =
      (distances is period).mergeSort (· ≤ ·) := mergeSort_eq_of_perm (hspans.map _)
  have hisNe : is.map Interval.span ≠ [] := mt List.map_eq_nil_iff.mp hne
  have hothersNe := ne_nil_of_perm hspans hisNe
  have hleast := isLeast_min? hothersNe
  have hgreatest := isGreatest_max? hothersNe
  rw [setOf_mem_of_perm hspans] at hleast hgreatest
  unfold ofArrivals steady
  dsimp only
  rw [hsorted, hspans.length_eq, hleast.unique (isLeast_min? hisNe),
    hgreatest.unique (isGreatest_max? hisNe)]

end Jitter

/-- A summary of intervals between stamps that are not negative never fails. It counts them, its
least and its greatest are attained and hold all others between them, the greatest deviation is
that of one of these two, and the deviation at 990 thousandths is that of an interval, and no
greater. All of this is the same in any order of the intervals. -/
theorem a_summary_tells_of_all_intervals (hstamps : ∀ s ∈ stamps, 0 ≤ s.nanos ∧ Signed.Fits s.nanos)
    (his : intervals stamps = .ok is) (hne : is ≠ []) (hperiod : 0 ≤ period)
    (hfits : Signed.Fits period) (pause : Nat) :
    ∃ j, Jitter.ofIntervals is period pause = .ok j ∧ j.TellsOf is period pause ∧
      ∀ others : List Interval, others.Perm is →
        ∃ j', Jitter.ofIntervals others period pause = .ok j' ∧ j'.steady = j.steady := by
  have htimely : ∀ i ∈ is, i.Timely := fun i hi => timely_of_mem_intervals hstamps his hi
  refine ⟨_, Jitter.ofIntervals_eq hne htimely hperiod hfits pause,
    Jitter.tellsOf_ofArrivals hne htimely period pause, fun others hperm => ?_⟩
  have hothers : ∀ i ∈ others, i.Timely := fun i hi => htimely i (hperm.mem_iff.mp hi)
  exact ⟨_, Jitter.ofIntervals_eq (ne_nil_of_perm hperm hne) hothers hperiod hfits pause,
    Jitter.steady_of_perm hne hperm period pause⟩

/-- Three ticks of one segment, the last one as late as can be, and two at one moment of another. -/
def wideApart : List Stamp :=
  [⟨4, 0, 0⟩, ⟨5, 0, 12⟩, ⟨6, 0, 9223372036854775807⟩, ⟨0, 0, 5⟩, ⟨1, 0, 5⟩]

/-- The longest period is farthest from the two ticks at one moment. -/
theorem a_summary_tells_of_intervals_wide_apart :
    let is : List Interval :=
      [⟨⟨4, 0, 0⟩, ⟨5, 0, 12⟩⟩, ⟨⟨5, 0, 12⟩, ⟨6, 0, 9223372036854775807⟩⟩, ⟨⟨0, 0, 5⟩, ⟨1, 0, 5⟩⟩]
    intervals wideApart = .ok is ∧
      ∃ j, Jitter.ofIntervals is 9223372036854775807 3 = .ok j ∧
        j.TellsOf is 9223372036854775807 3 ∧ j.least = 0 ∧ j.greatest = 9223372036854775795 ∧
        j.greatestDeviation = 9223372036854775807 ∧
        ∃ j', Jitter.ofIntervals is.reverse 9223372036854775807 3 = .ok j' ∧
          j'.steady = j.steady := by
  intro is
  have his : intervals wideApart = .ok is := by decide
  obtain ⟨j, hj, htells, hperm⟩ := a_summary_tells_of_all_intervals (by decide) his (by decide)
    (by decide) (show Signed.Fits 9223372036854775807 by decide) 3
  have hends : (Jitter.ofIntervals is 9223372036854775807 3).map (fun j => (j.least, j.greatest)) =
      .ok (0, 9223372036854775795) := rfl
  rw [hj] at hends
  obtain ⟨hleast, hgreatest⟩ := Prod.mk.inj (Except.ok.inj hends)
  refine ⟨his, j, hj, htells, hleast, hgreatest, ?_, hperm is.reverse (List.reverse_perm is)⟩
  rw [htells.greatestDeviation, hleast, hgreatest]
  decide

end Metronome
