-- How far a real-time clock has drifted. Where the counts of the stamps are
-- consecutive, the deviations add up, and the correction of a tick is what
-- undoes all of them. Every run of counts is reckoned from its own beginning.
import Metronome.Proofs.Timing.Neighbours
import Mathlib.Data.List.SplitBy
import Mathlib.Tactic.Ring

namespace Metronome

/-- A number that fits stays as it is. -/
theorem Signed.wrap_of_fits {n : Int} (h : Fits n) : wrap n = n := by
  unfold Fits least greatest at h
  exact Int.bmod_eq_of_le (by omega) (by omega)

/-! ## Runs of consecutive counts -/

namespace Stamp

/-- The stamps, cut into the longest runs of consecutive counts. -/
def runs (stamps : List Stamp) : List (List Stamp) := stamps.splitBy fun a b => a.Leads b

/-- The first of the second run does not follow the last of the first. -/
def Parted (p q : List Stamp) : Prop :=
  ∃ hp hq, decide ((p.getLast hp).Leads (q.head hq)) = false

theorem flatten_runs (stamps : List Stamp) : (runs stamps).flatten = stamps :=
  List.flatten_splitBy _ stamps

theorem nil_notMem_runs (stamps : List Stamp) : [] ∉ runs stamps := List.nil_notMem_splitBy _ stamps

theorem isChain_of_mem_runs {stamps run : List Stamp} (h : run ∈ runs stamps) :
    run.IsChain Leads :=
  (List.isChain_of_mem_splitBy h).imp fun _ _ hab => of_decide_eq_true hab

theorem runs_parted (stamps : List Stamp) : (runs stamps).IsChain Parted :=
  List.isChain_getLast_head_splitBy (fun a b : Stamp => decide (a.Leads b)) stamps

end Stamp

open Stamp

namespace Deviation

/-! ## One deviation -/

/-- The deviation of `b` behind `a`, in a run that begins with `origin`. -/
def measured (period : Int) (origin a b : Stamp) : Deviation :=
  ⟨b.nanos - a.nanos - period,
    origin.nanos + ((b.tickCount : Int) - origin.tickCount) * period - b.nanos, b⟩

/-- The ticks between two stamps can be counted. -/
def Countable (origin b : Stamp) : Prop := Signed.Fits ((b.tickCount : Int) - origin.tickCount)

instance (origin b : Stamp) : Decidable (Countable origin b) :=
  inferInstanceAs (Decidable (Signed.Fits _))

/-- No number on the way to this deviation leaves its range. -/
structure InRange (period : Int) (origin a b : Stamp) : Prop where
  arrival : Signed.Fits (b.nanos - a.nanos)
  span : Signed.Fits (((b.tickCount : Int) - origin.tickCount) * period)
  ideal : Signed.Fits (origin.nanos + ((b.tickCount : Int) - origin.tickCount) * period)
  deviation : Signed.Fits (b.nanos - a.nanos - period)
  correction : Signed.Fits
    (origin.nanos + ((b.tickCount : Int) - origin.tickCount) * period - b.nanos)

instance (period : Int) (origin a b : Stamp) : Decidable (InRange period origin a b) :=
  decidable_of_iff (Signed.Fits _ ∧ Signed.Fits _ ∧ Signed.Fits _ ∧ Signed.Fits _ ∧ Signed.Fits _)
    ⟨fun ⟨h1, h2, h3, h4, h5⟩ => ⟨h1, h2, h3, h4, h5⟩,
      fun ⟨h1, h2, h3, h4, h5⟩ => ⟨h1, h2, h3, h4, h5⟩⟩

variable {period : Int} {origin a b : Stamp} {l rest : List Stamp} {ds : List Deviation}

theorem measure_eq_ok (h : Countable origin b) {d : Deviation} :
    measure origin a b period = .ok d ↔
      InRange period origin a b ∧ d = measured period origin a b := by
  unfold measure Signed.sub Signed.mul Signed.add
  rw [Signed.wrap_of_fits h]
  simp only [Signed.keep_bind_eq_ok]
  constructor
  · rintro ⟨harrival, hspan, hideal, hdeviation, hcorrection, hd⟩
    exact ⟨⟨harrival, hspan, hideal, hdeviation, hcorrection⟩, (Except.ok.inj hd).symm⟩
  · rintro ⟨⟨harrival, hspan, hideal, hdeviation, hcorrection⟩, rfl⟩
    exact ⟨harrival, hspan, hideal, hdeviation, hcorrection, rfl⟩

/-! ## One run -/

/-- The deviations of a run. -/
def ofRun (period : Int) : List Stamp → List Deviation
  | [] => []
  | origin :: rest => ((origin :: rest).zip rest).map fun p => measured period origin p.1 p.2

/-- All stamps of a run but its first are measured against that one. What comes behind the run is
left to its last stamp. -/
theorem follow_run (hrun : (a :: l).IsChain Leads) (hcount : ∀ b ∈ l, Countable origin b) :
    follow period origin a (l ++ rest) = .ok ds ↔
      (∀ x ∈ (a :: l).dropLast, Unsigned.Fits (x.tickCount + 1)) ∧
      (∀ p ∈ (a :: l).zip l, InRange period origin p.1 p.2) ∧
      ∃ es, follow period origin ((a :: l).getLast (List.cons_ne_nil a l)) rest = .ok es ∧
        ds = (((a :: l).zip l).map fun p => measured period origin p.1 p.2) ++ es := by
  induction l generalizing a ds with
  | nil => simp
  | cons b l ih =>
    obtain ⟨hab, hrun⟩ := List.isChain_cons_cons.mp hrun
    obtain ⟨hb, hcount⟩ := List.forall_mem_cons.mp hcount
    rw [List.cons_append, follow_of_leads hab, List.dropLast_cons_cons, List.zip_cons_cons,
      List.getLast_cons_cons, List.forall_mem_cons, List.forall_mem_cons, List.map_cons]
    constructor
    · rintro ⟨hfit, d, es, hd, hes, rfl⟩
      obtain ⟨hrange, rfl⟩ := (measure_eq_ok hb).mp hd
      obtain ⟨hfits, hranges, fs, hfs, rfl⟩ := (ih hrun hcount).mp hes
      exact ⟨⟨hfit, hfits⟩, ⟨hrange, hranges⟩, fs, hfs, rfl⟩
    · rintro ⟨⟨hfit, hfits⟩, ⟨hrange, hranges⟩, fs, hfs, rfl⟩
      exact ⟨hfit, _, _, (measure_eq_ok hb).mpr ⟨hrange, rfl⟩,
        (ih hrun hcount).mpr ⟨hfits, hranges, fs, hfs, rfl⟩, rfl⟩

/-! ## All runs -/

/-- No number on the way to the deviations of a run leaves its range. -/
def RunInRange (period : Int) (run : List Stamp) : Prop :=
  ∀ origin ∈ run.head?, ∀ p ∈ run.zip run.tail, InRange period origin p.1 p.2

/-- All ticks of a run can be counted from its first. -/
def RunCountable (run : List Stamp) : Prop :=
  ∀ origin ∈ run.head?, ∀ b ∈ run.tail, Countable origin b

instance (period : Int) (run : List Stamp) : Decidable (RunInRange period run) :=
  inferInstanceAs (Decidable (∀ origin ∈ run.head?, ∀ p ∈ run.zip run.tail, _))

instance (run : List Stamp) : Decidable (RunCountable run) :=
  inferInstanceAs (Decidable (∀ origin ∈ run.head?, ∀ b ∈ run.tail, _))

/-- What holds of all stamps but the last of two rows holds of the last of the first row if there is
a second. -/
theorem forall_mem_dropLast_append {P : Stamp → Prop} (hl : l ≠ []) :
    (∀ x ∈ (l ++ rest).dropLast, P x) ↔
      (∀ x ∈ l.dropLast, P x) ∧ (rest ≠ [] → P (l.getLast hl)) ∧ ∀ x ∈ rest.dropLast, P x := by
  by_cases hrest : rest = []
  · subst hrest
    simp
  · have hl' : (∀ x ∈ l, P x) ↔ (∀ x ∈ l.dropLast, P x) ∧ P (l.getLast hl) := by
      conv_lhs => rw [← List.dropLast_append_getLast hl]
      rw [List.forall_mem_append, List.forall_mem_singleton]
    rw [List.dropLast_append_of_ne_nil hrest, List.forall_mem_append, hl', and_assoc,
      imp_iff_right hrest]

/-- Behind the last stamp of a run the other runs are measured by themselves. -/
theorem follow_flatten {m : List (List Stamp)} (hne : [] ∉ m)
    (hparted : ∀ run ∈ m.head?, Parted [a] run) :
    follow period origin a m.flatten = .ok ds ↔
      (m.flatten ≠ [] → Unsigned.Fits (a.tickCount + 1)) ∧
        deviations m.flatten period = .ok ds := by
  rcases m with _ | ⟨_ | ⟨b, l⟩, m⟩
  · simp [follow, deviations]
  · simp at hne
  · obtain ⟨_, _, hdecide⟩ := hparted _ rfl
    have hab : ¬ a.Leads b := of_decide_eq_false hdecide
    rw [List.flatten_cons, List.cons_append, follow_of_not_leads hab,
      imp_iff_right (List.cons_ne_nil _ _)]

/-- The deviations of parted runs are those of each run. There are some if and only if nothing
leaves its range. -/
theorem deviations_flatten {m : List (List Stamp)} (hne : [] ∉ m)
    (hrun : ∀ run ∈ m, run.IsChain Leads) (hparted : m.IsChain Parted)
    (hcount : ∀ run ∈ m, RunCountable run) :
    deviations m.flatten period = .ok ds ↔
      (∀ x ∈ m.flatten.dropLast, Unsigned.Fits (x.tickCount + 1)) ∧
      (∀ run ∈ m, RunInRange period run) ∧ ds = (m.map (ofRun period)).flatten := by
  induction m generalizing ds with
  | nil => simp [deviations, eq_comm]
  | cons run m ih =>
    rw [List.mem_cons, not_or] at hne
    obtain ⟨hrun, hruns⟩ := List.forall_mem_cons.mp hrun
    obtain ⟨hcount, hcounts⟩ := List.forall_mem_cons.mp hcount
    obtain ⟨hfirst, hothers⟩ := List.isChain_cons.mp hparted
    rcases run with _ | ⟨o, l⟩
    · exact absurd rfl hne.1
    have hlast : ∀ run ∈ m.head?, Parted [(o :: l).getLast (List.cons_ne_nil o l)] run := by
      intro run hmem
      obtain ⟨_, hq, h⟩ := hfirst run hmem
      exact ⟨List.cons_ne_nil _ _, hq, h⟩
    have hstart : deviations ((o :: l) :: m).flatten period =
        follow period o o (l ++ m.flatten) := rfl
    have hrange : RunInRange period (o :: l) ↔
        ∀ p ∈ (o :: l).zip l, InRange period o p.1 p.2 := by simp [RunInRange]
    rw [hstart, follow_run hrun (hcount o rfl), List.flatten_cons,
      forall_mem_dropLast_append (List.cons_ne_nil o l), List.forall_mem_cons, hrange,
      List.map_cons, List.flatten_cons]
    constructor
    · rintro ⟨hfits, hranges, es, hes, rfl⟩
      obtain ⟨hfit, hes⟩ := (follow_flatten hne.2 hlast).mp hes
      obtain ⟨hmore, hinRange, rfl⟩ := (ih hne.2 hruns hothers hcounts).mp hes
      exact ⟨⟨hfits, hfit, hmore⟩, ⟨hranges, hinRange⟩, rfl⟩
    · rintro ⟨⟨hfits, hfit, hmore⟩, ⟨hranges, hinRange⟩, rfl⟩
      exact ⟨hfits, hranges, _, (follow_flatten hne.2 hlast).mpr ⟨hfit,
        (ih hne.2 hruns hothers hcounts).mpr ⟨hmore, hinRange, rfl⟩⟩, rfl⟩

/-! ## Drift -/

/-- How far the deviations go in all. -/
def total (ds : List Deviation) : Int := (ds.map (·.deviation)).sum

/-- What the deviations of a run say of it. -/
structure Tells (period : Int) (run : List Stamp) (ds : List Deviation) : Prop where
  /-- There is one for each stamp but the first. -/
  stamps : ds.map (·.stamp) = run.tail
  /-- It is the time since the stamp before, less the period. -/
  deviations : ds.map (·.deviation) =
    (run.zip run.tail).map fun p => p.2.nanos - p.1.nanos - period
  /-- The correction takes back all deviations of the run so far. -/
  corrections : ∀ (i : Nat) (d : Deviation), ds[i]? = some d →
    d.correction = -total (ds.take (i + 1))
  /-- So it takes back how far the stamp has drifted since the run began. -/
  drift : ∀ (i : Nat) (d : Deviation), ds[i]? = some d → ∀ origin ∈ run.head?,
    d.correction = -(d.stamp.nanos - origin.nanos - (i + 1) * period)

/-- The deviations behind a stamp add up. The counts go up by one with each of them, so the ideal
line goes up by one period. -/
theorem correction_of_measured {i : Nat} {d : Deviation} (hrun : (a :: l).IsChain Leads)
    (hd : (((a :: l).zip l).map fun p => measured period origin p.1 p.2)[i]? = some d) :
    let base := origin.nanos + ((a.tickCount : Int) - origin.tickCount) * period - a.nanos
    d.correction =
        base - total ((((a :: l).zip l).map fun p => measured period origin p.1 p.2).take (i + 1)) ∧
      d.correction = base - (d.stamp.nanos - a.nanos - (i + 1) * period) := by
  induction l generalizing a i with
  | nil => simp at hd
  | cons b l ih =>
    obtain ⟨hab, hrun⟩ := List.isChain_cons_cons.mp hrun
    have hcount : (b.tickCount : Int) = a.tickCount + 1 := by exact_mod_cast hab
    rw [List.zip_cons_cons, List.map_cons] at hd ⊢
    cases i with
    | zero =>
      obtain rfl : measured period origin a b = d := by simpa using hd
      simp only [measured, total, hcount, List.take_succ_cons, List.take_zero, List.map_cons,
        List.map_nil, List.sum_cons, List.sum_nil, Nat.cast_zero]
      constructor <;> ring
    | succ i =>
      rw [List.getElem?_cons_succ] at hd
      obtain ⟨hsum, hdrift⟩ := ih hrun hd
      rw [List.take_succ_cons, total, List.map_cons, List.sum_cons, ← total]
      simp only [hcount] at hsum hdrift
      constructor
      · rw [hsum]
        simp only [measured]
        ring
      · rw [hdrift]
        push_cast
        ring

theorem ofRun_tells {run : List Stamp} (hrun : run.IsChain Leads) :
    Tells period run (ofRun period run) := by
  rcases run with _ | ⟨o, l⟩
  · exact ⟨rfl, rfl, by simp [ofRun], by simp [ofRun]⟩
  · have hmeasured {i : Nat} {d : Deviation} (hd : (ofRun period (o :: l))[i]? = some d) :
        d.correction = -total ((ofRun period (o :: l)).take (i + 1)) ∧
          d.correction = -(d.stamp.nanos - o.nanos - (i + 1) * period) := by
      obtain ⟨hsum, hdrift⟩ := correction_of_measured hrun hd
      rw [sub_self, zero_mul, add_zero, sub_self, zero_sub] at hsum hdrift
      exact ⟨hsum, hdrift⟩
    refine ⟨?_, ?_, fun i d hd => (hmeasured hd).1, fun i d hd origin ho => ?_⟩
    · rw [ofRun, List.map_map]
      exact List.map_snd_zip (by simp)
    · rw [ofRun, List.map_map]
      rfl
    · obtain rfl : o = origin := Option.some.inj ho
      exact (hmeasured hd).2

/-! ## The law -/

/-- The deviations of stamps can be told without a number that leaves its range. -/
structure Measurable (stamps : List Stamp) (period : Int) : Prop where
  /-- The count after that of each stamp but the last one. -/
  next : ∀ x ∈ stamps.dropLast, Unsigned.Fits (x.tickCount + 1)
  /-- The number of ticks since a run began. -/
  countable : ∀ run ∈ runs stamps, RunCountable run
  /-- What is reckoned from them. -/
  inRange : ∀ run ∈ runs stamps, RunInRange period run

/-- The deviations of stamps are those of their runs. There are some if and only if nothing leaves
its range. -/
theorem deviations_eq_ok {stamps : List Stamp} (h : ∀ run ∈ runs stamps, RunCountable run) :
    deviations stamps period = .ok ds ↔
      Measurable stamps period ∧ ds = ((runs stamps).map (ofRun period)).flatten := by
  have hparts : deviations (runs stamps).flatten period = .ok ds ↔ _ :=
    deviations_flatten (nil_notMem_runs stamps) (fun _ => isChain_of_mem_runs)
      (runs_parted stamps) h
  rw [flatten_runs] at hparts
  rw [hparts]
  constructor
  · rintro ⟨hnext, hinRange, hds⟩
    exact ⟨⟨hnext, h, hinRange⟩, hds⟩
  · rintro ⟨hm, hds⟩
    exact ⟨hm.next, hm.inRange, hds⟩

/-- There is one deviation for each stamp whose predecessor in the list has the count before, and
they come in the order of the stamps. Each run of consecutive counts tells its own: the correction
takes back all deviations of the run up to its own, which is how far the tick has drifted since the
earliest stamp of the run. -/
theorem corrections_take_back_the_drift_of_their_run {stamps : List Stamp} {period : Int}
    (h : Measurable stamps period) :
    ∃ parts : List (List Deviation),
      deviations stamps period = .ok parts.flatten ∧
      parts.flatten.map (·.stamp) = (neighbours stamps).map (·.2) ∧
      (runs stamps).Forall₂ (Tells period) parts := by
  have hds := (deviations_eq_ok h.countable).mpr ⟨h, rfl⟩
  refine ⟨(runs stamps).map (ofRun period), hds, ?_, ?_⟩
  · obtain ⟨-, -, hmap⟩ := deviations_tell hds
    have hstamps := congrArg (List.map Prod.fst) hmap
    rw [List.map_map, List.map_map] at hstamps
    exact hstamps
  · rw [List.forall₂_map_right_iff, List.forall₂_same]
    exact fun run hrun => ofRun_tells (isChain_of_mem_runs hrun)

/-- Three runs, of which the first and the second have lost their beginning. -/
theorem corrections_take_back_the_drift_of_patchy_runs :
    Measurable patchy 10 ∧
    (∃ parts : List (List Deviation), deviations patchy 10 = .ok parts.flatten ∧
      parts.flatten.map (·.stamp) = [⟨5, 0, 112⟩, ⟨8, 0, 139⟩, ⟨9, 0, 151⟩, ⟨1, 0, 160⟩] ∧
      (runs patchy).Forall₂ (Tells 10) parts) ∧
    (deviations patchy 10).map (List.map (·.correction)) = .ok [-2, 1, -1, 1] := by
  have hm : Measurable patchy 10 := ⟨by decide, by decide, by decide⟩
  exact ⟨hm, corrections_take_back_the_drift_of_their_run hm, rfl⟩

end Deviation

end Metronome
