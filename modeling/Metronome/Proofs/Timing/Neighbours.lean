-- Neighbours among the stamps. The intervals and the deviations are made by
-- two loops, and each has its own test for ticks that follow one another. As
-- long as the clock does not go back they report the same ticks.
import Metronome.Timing.Stamp

namespace Metronome

/-! ## Computations that stay in range -/

namespace Signed

/-- What goes on with a kept number succeeds if the number fits and the rest does. -/
theorem keep_bind_eq_ok {α : Type} {n : Int} {f : Fault} {next : Int → Except Fault α} {x : α} :
    (keep n f >>= next) = .ok x ↔ Fits n ∧ next n = .ok x := by
  unfold keep
  split
  · rename_i h
    exact (and_iff_right h).symm
  · rename_i h
    exact iff_of_false (fun hok => nomatch hok) (fun hok => h hok.1)

end Signed

theorem Unsigned.add_bind_eq_ok {α : Type} {a b : Nat} {next : Nat → Except Fault α} {x : α} :
    (add a b >>= next) = .ok x ↔ Fits (a + b) ∧ next (a + b) = .ok x := by
  unfold add
  split
  · rename_i h
    exact (and_iff_right h).symm
  · rename_i h
    exact iff_of_false (fun hok => nomatch hok) (fun hok => h hok.1)

/-! ## Neighbours -/

namespace Stamp

/-- `b` carries the count after that of `a`. -/
def Leads (a b : Stamp) : Prop := b.tickCount = a.tickCount + 1

instance (a b : Stamp) : Decidable (a.Leads b) := inferInstanceAs (Decidable (_ = _))

/-- The neighbours whose counts are consecutive, in their order. -/
def neighbours (stamps : List Stamp) : List (Stamp × Stamp) :=
  (stamps.zip stamps.tail).filter fun p => p.1.Leads p.2

theorem neighbours_cons_cons (a b : Stamp) (rest : List Stamp) :
    neighbours (a :: b :: rest) =
      if a.Leads b then (a, b) :: neighbours (b :: rest) else neighbours (b :: rest) := by
  unfold neighbours
  rw [List.tail_cons, List.zip_cons_cons, List.filter_cons]
  simp

/-- Of two neighbours the first one comes before the second in the list. -/
theorem rel_of_mem_neighbours {R : Stamp → Stamp → Prop} {stamps : List Stamp}
    (h : stamps.Pairwise R) {p : Stamp × Stamp} (hp : p ∈ neighbours stamps) : R p.1 p.2 := by
  obtain ⟨i, hi, rfl⟩ := List.mem_iff_getElem.mp (List.mem_filter.mp hp).1
  rw [List.length_zip, List.length_tail] at hi
  rw [List.getElem_zip, List.getElem_tail]
  exact List.pairwise_iff_getElem.mp h i (i + 1) (by omega) (by omega) (Nat.lt_succ_self i)

end Stamp

open Stamp

namespace Deviation

variable {period : Int} {origin a b : Stamp} {rest : List Stamp} {ds : List Deviation}

/-! ## One step of the loop -/

/-- A stamp that follows in its run is measured. -/
theorem follow_of_leads (h : a.Leads b) :
    follow period origin a (b :: rest) = .ok ds ↔
      Unsigned.Fits (a.tickCount + 1) ∧ ∃ d es, measure origin a b period = .ok d ∧
        follow period origin b rest = .ok es ∧ ds = d :: es := by
  unfold Leads at h
  rw [follow, Unsigned.add_bind_eq_ok, if_pos h]
  refine and_congr_right fun _ => ?_
  cases measure origin a b period with
  | error f => exact iff_of_false (fun hok => nomatch hok) (by rintro ⟨_, _, hd, _⟩; cases hd)
  | ok d =>
    cases follow period origin b rest with
    | error f => exact iff_of_false (fun hok => nomatch hok) (by rintro ⟨_, _, _, he, _⟩; cases he)
    | ok es =>
      constructor
      · rintro ⟨⟩
        exact ⟨d, es, rfl, rfl, rfl⟩
      · rintro ⟨_, _, ⟨⟩, ⟨⟩, rfl⟩
        rfl

/-- Any other stamp begins a run. -/
theorem follow_of_not_leads (h : ¬ a.Leads b) :
    follow period origin a (b :: rest) = .ok ds ↔
      Unsigned.Fits (a.tickCount + 1) ∧ deviations (b :: rest) period = .ok ds := by
  unfold Leads at h
  rw [follow, Unsigned.add_bind_eq_ok, if_neg h]
  rfl

/-- A deviation is the time since the stamp before, less the period, whatever its run began with. -/
theorem measure_tells {d : Deviation} (h : measure origin a b period = .ok d) :
    Signed.Fits (b.nanos - a.nanos) ∧ d.stamp = b ∧ d.deviation = b.nanos - a.nanos - period := by
  unfold measure Signed.sub Signed.mul Signed.add at h
  simp only [Signed.keep_bind_eq_ok] at h
  obtain ⟨harrival, -, -, -, -, hd⟩ := h
  obtain rfl := Except.ok.inj hd
  exact ⟨harrival, rfl, rfl⟩

/-- There is one deviation for each two neighbours. -/
theorem follow_tells (h : follow period origin a rest = .ok ds) :
    (∀ x ∈ (a :: rest).dropLast, Unsigned.Fits (x.tickCount + 1)) ∧
      (∀ p ∈ neighbours (a :: rest), Signed.Fits (p.2.nanos - p.1.nanos)) ∧
      ds.map (fun d => (d.stamp, d.deviation)) =
        (neighbours (a :: rest)).map fun p => (p.2, p.2.nanos - p.1.nanos - period) := by
  induction rest generalizing origin a ds with
  | nil =>
    obtain rfl := Except.ok.inj h
    simp [neighbours]
  | cons b rest ih =>
    rw [List.dropLast_cons_cons, List.forall_mem_cons, neighbours_cons_cons]
    by_cases hab : a.Leads b
    · obtain ⟨hfit, d, es, hd, hes, rfl⟩ := (follow_of_leads hab).mp h
      obtain ⟨harrival, hstamp, hdeviation⟩ := measure_tells hd
      obtain ⟨hfits, harrivals, hmap⟩ := ih hes
      rw [if_pos hab, List.forall_mem_cons, List.map_cons, List.map_cons, hmap, hstamp, hdeviation]
      exact ⟨⟨hfit, hfits⟩, ⟨harrival, harrivals⟩, rfl⟩
    · obtain ⟨hfit, hes⟩ := (follow_of_not_leads hab).mp h
      obtain ⟨hfits, harrivals, hmap⟩ := ih hes
      rw [if_neg hab]
      exact ⟨⟨hfit, hfits⟩, harrivals, hmap⟩

theorem deviations_tell {stamps : List Stamp} (h : deviations stamps period = .ok ds) :
    (∀ x ∈ stamps.dropLast, Unsigned.Fits (x.tickCount + 1)) ∧
      (∀ p ∈ neighbours stamps, Signed.Fits (p.2.nanos - p.1.nanos)) ∧
      ds.map (fun d => (d.stamp, d.deviation)) =
        (neighbours stamps).map fun p => (p.2, p.2.nanos - p.1.nanos - period) := by
  rcases stamps with _ | ⟨a, rest⟩
  · obtain rfl := Except.ok.inj h
    simp [neighbours]
  · exact follow_tells h

end Deviation

/-! ## Intervals -/

/-- Where the clock does not go back, there is one interval for each two neighbours. -/
theorem intervals_of_forward {stamps : List Stamp}
    (hforward : stamps.Pairwise fun a b => a.nanos ≤ b.nanos)
    (hnext : ∀ x ∈ stamps.dropLast, Unsigned.Fits (x.tickCount + 1)) :
    intervals stamps = .ok ((neighbours stamps).map fun p => ⟨p.1, p.2⟩) := by
  induction stamps with
  | nil => rfl
  | cons a stamps ih =>
    rcases stamps with _ | ⟨b, rest⟩
    · rfl
    · rw [List.dropLast_cons_cons, List.forall_mem_cons] at hnext
      obtain ⟨hle, hforward⟩ := List.pairwise_cons.mp hforward
      have hab : a.nanos ≤ b.nanos := hle b (List.mem_cons_self ..)
      have hadd : Unsigned.add a.tickCount 1 = .ok (a.tickCount + 1) := if_pos hnext.1
      have hrest := ih hforward hnext.2
      rw [neighbours_cons_cons]
      simp only [intervals, Interval.between?, hadd, hrest, Except.map]
      by_cases hleads : a.Leads b
      · rw [if_pos ⟨hleads, hab⟩, if_pos hleads]
        rfl
      · rw [if_neg fun h => hleads h.1, if_neg hleads]
        rfl

/-! ## The law -/

/-- Where the clock does not go back, the intervals are the neighbours with consecutive counts, in
their order. There is one deviation for each of them: it bears the stamp at its end and says how
much longer than the period it was. -/
theorem deviations_measure_the_intervals {stamps : List Stamp} {period : Int}
    {ds : List Deviation} (hforward : stamps.Pairwise fun a b => a.nanos ≤ b.nanos)
    (h : deviations stamps period = .ok ds) :
    let pairs : List Interval := (neighbours stamps).map fun p => ⟨p.1, p.2⟩
    intervals stamps = .ok pairs ∧ pairs.length = ds.length ∧
      ∀ (i : Nat) (v : Interval) (d : Deviation), pairs[i]? = some v → ds[i]? = some d →
        d.stamp = v.stop ∧
          ∃ arrival, v.arrival = .ok arrival ∧ 0 ≤ arrival ∧ d.deviation = arrival - period := by
  intro pairs
  obtain ⟨hnext, hfits, hmap⟩ := Deviation.deviations_tell h
  refine ⟨intervals_of_forward hforward hnext, ?_, fun i v d hv hd => ?_⟩
  · simpa [pairs] using (congrArg List.length hmap).symm
  · obtain ⟨p, hp, rfl⟩ := Option.map_eq_some_iff.mp ((List.getElem?_map ..).symm.trans hv)
    have hmem := List.mem_of_getElem? hp
    have hboth := congrArg (·[i]?) hmap
    simp only [List.getElem?_map, hd, hp, Option.map_some, Option.some.injEq,
      Prod.mk.injEq] at hboth
    obtain ⟨hstamp, hdeviation⟩ := hboth
    exact ⟨hstamp, p.2.nanos - p.1.nanos, Signed.keep_of_fits (hfits p hmem),
      Int.sub_nonneg_of_le (rel_of_mem_neighbours hforward hmem), hdeviation⟩

/-- Two segments, and the first one has lost its beginning and a stamp in the middle. -/
def patchy : List Stamp :=
  [⟨4, 0, 100⟩, ⟨5, 0, 112⟩, ⟨7, 0, 130⟩, ⟨8, 0, 139⟩, ⟨9, 0, 151⟩, ⟨0, 0, 151⟩, ⟨1, 0, 160⟩]

theorem deviations_measure_the_patchy_intervals :
    patchy.Pairwise (fun a b => a.nanos ≤ b.nanos) ∧
    ∃ ds, deviations patchy 10 = .ok ds ∧ ds.map (·.deviation) = [2, -1, 2, -1] ∧
      (intervals patchy).map List.length = .ok 4 := by
  have hforward : patchy.Pairwise (fun a b => a.nanos ≤ b.nanos) := by decide
  obtain ⟨ds, hds, hdeviations⟩ : ∃ ds, deviations patchy 10 = .ok ds ∧
      ds.map (·.deviation) = [2, -1, 2, -1] := ⟨_, rfl, rfl⟩
  obtain ⟨hintervals, hlength, -⟩ := deviations_measure_the_intervals hforward hds
  refine ⟨hforward, ds, hds, hdeviations, ?_⟩
  have hfour : ds.length = 4 := by simpa using congrArg List.length hdeviations
  rw [hintervals, Except.map, hlength, hfour]

/-- If the clock goes back, there is a deviation but no interval. -/
example : intervals [⟨0, 0, 10⟩, ⟨1, 0, 9⟩] = .ok [] ∧
    deviations [⟨0, 0, 10⟩, ⟨1, 0, 9⟩] 5 = .ok [⟨-6, 6, ⟨1, 0, 9⟩⟩] := ⟨rfl, rfl⟩

end Metronome
