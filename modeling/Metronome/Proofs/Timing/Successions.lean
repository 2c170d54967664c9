-- Intervals and where they come from. Who makes an interval from two stamps
-- must show that the second follows the first. Who reads one from a text need
-- not: a stored interval is taken as it is, and may even run backwards.
import Metronome.Proofs.Stored
import Metronome.Proofs.Timing.Neighbours

namespace Metronome

open Data

variable {a b : Stamp} {i : Interval} {stamps : List Stamp} {is : List Interval}

/-- The second stamp carries the next count and is not earlier. -/
structure Interval.WellFormed (i : Interval) : Prop where
  next : i.start.Leads i.stop
  forward : i.start.nanos ≤ i.stop.nanos

/-! ## Intervals that are made -/

theorem Interval.between?_eq_some_iff :
    Interval.between? a b = .ok (some i) ↔
      i = ⟨a, b⟩ ∧ i.WellFormed ∧ Unsigned.Fits (a.tickCount + 1) := by
  unfold Interval.between? Unsigned.add
  by_cases hfits : Unsigned.Fits (a.tickCount + 1)
  · simp only [if_pos hfits, Except.map]
    by_cases hnext : b.tickCount = a.tickCount + 1 ∧ a.nanos ≤ b.nanos
    · rw [if_pos hnext]
      constructor
      · rintro ⟨⟩
        exact ⟨rfl, ⟨hnext.1, hnext.2⟩, hfits⟩
      · rintro ⟨rfl, -, -⟩
        rfl
    · rw [if_neg hnext]
      refine iff_of_false nofun ?_
      rintro ⟨rfl, hformed, -⟩
      exact hnext ⟨hformed.next, hformed.forward⟩
  · rw [if_neg hfits]
    exact iff_of_false nofun fun h => hfits h.2.2

/-- Every interval of a list of stamps was made from two of them. -/
theorem between_of_mem_intervals (h : intervals stamps = .ok is) (hi : i ∈ is) :
    ∃ a ∈ stamps, ∃ b ∈ stamps, Interval.between? a b = .ok (some i) := by
  induction stamps generalizing is with
  | nil =>
    cases h
    cases hi
  | cons a stamps ih =>
    cases stamps with
    | nil =>
      cases h
      cases hi
    | cons b rest =>
      unfold intervals at h
      cases hfirst : Interval.between? a b with
      | error f => rw [hfirst] at h; cases h
      | ok first =>
        cases hrest : intervals (b :: rest) with
        | error f => rw [hfirst, hrest] at h; cases h
        | ok more =>
          rw [hfirst, hrest] at h
          cases h
          rcases List.mem_append.mp hi with hi | hi
          · refine ⟨a, List.mem_cons_self, b, List.mem_cons_of_mem a List.mem_cons_self, ?_⟩
            rw [hfirst, Option.mem_toList.mp hi]
          · obtain ⟨c, hc, d, hd, hmade⟩ := ih hrest hi
            exact ⟨c, List.mem_cons_of_mem a hc, d, List.mem_cons_of_mem a hd, hmade⟩

theorem made_of_mem_intervals (h : intervals stamps = .ok is) (hi : i ∈ is) :
    ∃ a b, Interval.between? a b = .ok (some i) := by
  obtain ⟨a, -, b, -, hmade⟩ := between_of_mem_intervals h hi
  exact ⟨a, b, hmade⟩

/-- Two stamps that make an interval are a list that has it. -/
theorem intervals_pair (h : Interval.between? a b = .ok (some i)) :
    intervals [a, b] = .ok [i] := by
  rw [intervals, h]
  rfl

/-! ## Intervals that are read -/

theorem fits_of_unsigned? {v : Option Data} {n : Nat} (h : required? unsigned? v = some n) :
    Unsigned.Fits n := by
  obtain ⟨d, -, hd⟩ := Option.bind_eq_some_iff.mp h
  obtain ⟨m, -, hm⟩ := Option.bind_eq_some_iff.mp hd
  split at hm
  · rename_i hfits
    exact Option.some.inj hm ▸ hfits.2
  · cases hm

theorem fits_of_signed? {v : Option Data} {n : Int} (h : required? signed? v = some n) :
    Signed.Fits n := by
  obtain ⟨d, -, hd⟩ := Option.bind_eq_some_iff.mp h
  obtain ⟨m, -, hm⟩ := Option.bind_eq_some_iff.mp hd
  split at hm
  · rename_i hfits
    exact Option.some.inj hm ▸ hfits
  · cases hm

theorem Stamp.storable_of_read {f : Format} {d : Data} (h : Stamp.ofData? f d = some a) :
    a.Storable := by
  unfold Stamp.ofData? at h
  split at h
  · simp only [Option.bind_eq_bind, Option.bind_eq_some_iff] at h
    obtain ⟨count, hcount, wall, hwall, nanos, hnanos, hstamp⟩ := h
    cases hstamp
    exact ⟨fits_of_unsigned? hcount, fits_of_signed? hwall, fits_of_signed? hnanos⟩
  · cases h

theorem Interval.storable_of_read {f : Format} {d : Data} (h : Interval.ofData? f d = some i) :
    i.Storable := by
  unfold Interval.ofData? at h
  split at h
  · simp only [Option.bind_eq_bind, Option.bind_eq_some_iff] at h
    obtain ⟨start, hstart, stop, hstop, hinterval⟩ := h
    cases hinterval
    obtain ⟨_, -, hstart⟩ := Option.bind_eq_some_iff.mp hstart
    obtain ⟨_, -, hstop⟩ := Option.bind_eq_some_iff.mp hstop
    exact ⟨Stamp.storable_of_read hstart, Stamp.storable_of_read hstop⟩
  · cases h

/-! ## The law -/

/-- An interval can be made, or found among stamps, only if it is well formed. It can be read from a
text as soon as its numbers fit. The time from its start to its end is negative if the clock went
back. -/
theorem only_read_intervals_run_backwards (i : Interval) :
    ((∃ a b, Interval.between? a b = .ok (some i)) ↔
        i.WellFormed ∧ Unsigned.Fits i.stop.tickCount) ∧
      ((∃ stamps is, intervals stamps = .ok is ∧ i ∈ is) ↔
        i.WellFormed ∧ Unsigned.Fits i.stop.tickCount) ∧
      ((∃ text, Kind.interval.form.ofText? text = some i) ↔ i.Storable) ∧
      ∀ n, i.arrival = .ok n → (0 ≤ n ↔ i.start.nanos ≤ i.stop.nanos) := by
  have hmade : (∃ a b, Interval.between? a b = .ok (some i)) ↔
      i.WellFormed ∧ Unsigned.Fits i.stop.tickCount := by
    constructor
    · rintro ⟨a, b, h⟩
      obtain ⟨rfl, hformed, hfits⟩ := Interval.between?_eq_some_iff.mp h
      exact ⟨hformed, hformed.next ▸ hfits⟩
    · rintro ⟨hformed, hfits⟩
      exact ⟨i.start, i.stop, Interval.between?_eq_some_iff.mpr
        ⟨rfl, hformed, hformed.next ▸ hfits⟩⟩
  refine ⟨hmade, ?_, ?_, fun n hn => ?_⟩
  · rw [← hmade]
    constructor
    · rintro ⟨stamps, is, h, hi⟩
      exact made_of_mem_intervals h hi
    · rintro ⟨a, b, h⟩
      exact ⟨[a, b], [i], intervals_pair h, List.mem_singleton_self i⟩
  · constructor
    · rintro ⟨text, h⟩
      obtain ⟨d, -, hd⟩ := Option.bind_eq_some_iff.mp h
      exact Interval.storable_of_read hd
    · exact fun h => ⟨_, Kind.ofText?_text .interval h⟩
  · obtain ⟨-, rfl⟩ := Signed.keep_eq_ok.mp hn
    omega

/-- Two stamps of one segment, the later one first. -/
def swapped : Interval := ⟨⟨5, 0, 10⟩, ⟨4, 0, 4⟩⟩

/-- No one makes an interval of them, but there is a text that tells it, and then the time between
them is negative. -/
theorem only_a_text_tells_the_swapped_interval :
    (¬ ∃ a b, Interval.between? a b = .ok (some swapped)) ∧
      (¬ ∃ stamps is, intervals stamps = .ok is ∧ swapped ∈ is) ∧
      (∃ text, Kind.interval.form.ofText? text = some swapped) ∧ swapped.arrival = .ok (-6) := by
  have hformed : ¬ swapped.WellFormed := fun h => absurd h.forward (by decide)
  have hstorable : swapped.Storable :=
    ⟨⟨by decide, by decide, by decide⟩, ⟨by decide, by decide, by decide⟩⟩
  obtain ⟨hmade, hpaired, hread, -⟩ := only_read_intervals_run_backwards swapped
  exact ⟨fun h => hformed (hmade.mp h).1, fun h => hformed (hpaired.mp h).1, hread.mpr hstorable,
    rfl⟩

/-- A text of two stamps with the counts 5 and 3. -/
def backwards : String :=
  "\x7b\x22start\x22:\x7b\x22tick_count\x22:5,\x22wall_clock_millis\x22:0," ++
    "\x22monotonic_nanos\x22:10\x7d,\x22end\x22:\x7b\x22tick_count\x22:3," ++
    "\x22wall_clock_millis\x22:0,\x22monotonic_nanos\x22:4\x7d\x7d"

/-- It is read as an interval that is not well formed. -/
theorem a_read_interval_can_run_backwards :
    ∃ i, Kind.interval.form.ofText? backwards = some i ∧ ¬ i.WellFormed ∧ i.arrival = .ok (-6) := by
  have hread : (Json.read? backwards).bind (Interval.ofData? .json) =
      some ⟨⟨5, 0, 10⟩, ⟨3, 0, 4⟩⟩ := by decide +kernel
  exact ⟨_, hread, fun h => absurd h.forward (by decide), rfl⟩

end Metronome
