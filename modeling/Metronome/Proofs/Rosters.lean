-- What a roster holds. Many callers register and unregister listeners, one call
-- after another, and others look at the roster at any time. It holds exactly the
-- listeners that were registered last, in the order in which they were, and who
-- has looked at it keeps what was there.
import Metronome.Roster
import Mathlib.Data.List.Induction
import Mathlib.Data.List.Nodup

namespace Metronome

namespace Roster

/-! ## Calls -/

inductive Call where
  | register (x : Listener)
  | unregister (x : Listener)
  deriving DecidableEq, Repr

namespace Call

def listener : Call → Listener
  | .register x => x
  | .unregister x => x

/-- The roster behind the call, if it is granted. -/
def on? (r : Roster) : Call → Option Roster
  | .register x => r.register? x
  | .unregister x => r.unregister? x

/-- Newcomers are welcome, and who is there may go. -/
def Fits (names : List Listener) : Call → Prop
  | .register x => x ∉ names
  | .unregister x => x ∈ names

instance (names : List Listener) (c : Call) : Decidable (c.Fits names) := by
  cases c <;> unfold Fits <;> infer_instance

/-- Who comes goes to the end, and who goes leaves the others in their order. -/
def edit (names : List Listener) : Call → List Listener
  | .register x => names ++ [x]
  | .unregister x => names.filter (· != x)

end Call

/-- A call that was made, and whether it was granted. -/
structure Entry where
  call : Call
  granted : Bool
  deriving DecidableEq, Repr

/-- The latest call about `x` that was granted, and its place in the log. -/
def latest? (x : Listener) (log : List Entry) : Option (Nat × Call) :=
  (log.zipIdx.filter fun e => e.1.granted && e.1.call.listener == x).getLast?.map
    fun e => (e.2, e.1.call)

/-- Since when `x` has been there, or gone. -/
def since (log : List Entry) (x : Listener) : Nat := (latest? x log).elim 0 (·.1)

/-! ## A roster that is shared -/

/-- The editions of a roster, of which one is in force. Who takes a snapshot is handed the number of
that one. -/
structure Shared where
  editions : List Roster := [{}]
  inForce : Nat := 0
  deriving DecidableEq, Repr

namespace Shared

/-- What stands in an edition. -/
def read (s : Shared) (edition : Nat) : Roster := (s.editions[edition]?).getD {}

def roster (s : Shared) : Roster := s.read s.inForce

/-- A call in one step. No edition is written on: a call that is granted puts another one in
force. -/
def call (s : Shared) (c : Call) : Shared × Bool :=
  match c.on? s.roster with
  | some next => ({ editions := s.editions ++ [next], inForce := s.editions.length }, true)
  | none => (s, false)

/-- Calls in the order in which their callers get their turns. -/
def after (s : Shared) (calls : List Call) : Shared := calls.foldl (fun s c => (s.call c).1) s

/-- What came of the calls. -/
def log (s : Shared) : List Call → List Entry
  | [] => []
  | c :: calls => ⟨c, (s.call c).2⟩ :: (s.call c).1.log calls

end Shared

variable {r : Roster} {c : Call} {s : Shared} {log : List Entry} {x y : Listener}

/-! ## The log -/

theorem latest?_concat (x : Listener) (log : List Entry) (e : Entry) :
    latest? x (log ++ [e]) =
      if e.granted && e.call.listener == x then some (log.length, e.call) else latest? x log := by
  unfold latest?
  rw [List.zipIdx_append, List.filter_append, List.getLast?_append, List.zipIdx_singleton,
    List.filter_singleton, Nat.zero_add]
  cases h : e.granted && e.call.listener == x <;> simp

theorem latest?_refused (x : Listener) (log : List Entry) (c : Call) :
    latest? x (log ++ [⟨c, false⟩]) = latest? x log := by
  simp [latest?_concat]

theorem latest?_granted (log : List Entry) (c : Call) :
    latest? c.listener (log ++ [⟨c, true⟩]) = some (log.length, c) := by
  simp [latest?_concat]

theorem latest?_of_ne (h : y ≠ c.listener) (log : List Entry) (granted : Bool) :
    latest? y (log ++ [⟨c, granted⟩]) = latest? y log := by
  simp [latest?_concat, Ne.symm h]

theorem since_granted (log : List Entry) (c : Call) :
    since (log ++ [⟨c, true⟩]) c.listener = log.length := by
  rw [since, latest?_granted, Option.elim_some]

theorem since_of_ne (h : y ≠ c.listener) (log : List Entry) (granted : Bool) :
    since (log ++ [⟨c, granted⟩]) y = since log y := by
  rw [since, latest?_of_ne h, since]

theorem lt_of_latest? {t : Nat} (h : latest? x log = some (t, c)) : t < log.length := by
  induction log using List.reverseRecOn with
  | nil => cases h
  | append_singleton log e ih =>
    rw [latest?_concat] at h
    rw [List.length_append, List.length_singleton]
    split at h
    · cases h
      exact Nat.lt_succ_self _
    · exact Nat.lt_succ_of_lt (ih h)

/-! ## One call -/

/-- A call is granted exactly if it fits. -/
theorem on?_eq (h : r.names.Nodup) (c : Call) :
    c.on? r = if c.Fits r.names then some ⟨c.edit r.names⟩ else none := by
  cases c with
  | register x =>
    by_cases hx : x ∈ r.names <;> simp [Call.on?, register?, Call.Fits, Call.edit, hx]
  | unregister x =>
    have herase : r.names.erase x = r.names.filter (· != x) := h.erase_eq_filter x
    by_cases hx : x ∈ r.names <;> simp [Call.on?, unregister?, Call.Fits, Call.edit, hx, herase]

theorem nodup_edit {names : List Listener} (h : names.Nodup) (hc : c.Fits names) :
    (c.edit names).Nodup := by
  cases c with
  | register x =>
    rw [Call.edit, ← List.concat_eq_append]
    exact h.concat hc
  | unregister x => exact h.filter _

/-- Who is not spoken of comes before and after, or neither. -/
theorem mem_edit_of_ne (h : y ≠ c.listener) (names : List Listener) :
    y ∈ c.edit names ↔ y ∈ names := by
  cases c with
  | register x =>
    have hne : y ≠ x := h
    simp [Call.edit, hne]
  | unregister x =>
    have hne : y ≠ x := h
    simp [Call.edit, hne]

namespace Shared

theorem call_of_fits (h : s.roster.names.Nodup) (hc : c.Fits s.roster.names) :
    s.call c =
      ({ editions := s.editions ++ [⟨c.edit s.roster.names⟩], inForce := s.editions.length },
        true) := by
  rw [call, on?_eq h, if_pos hc]

theorem call_of_not_fits (h : s.roster.names.Nodup) (hc : ¬ c.Fits s.roster.names) :
    s.call c = (s, false) := by
  rw [call, on?_eq h, if_neg hc]

theorem roster_of_fits (h : s.roster.names.Nodup) (hc : c.Fits s.roster.names) :
    (s.call c).1.roster = ⟨c.edit s.roster.names⟩ := by
  simp [call_of_fits h hc, roster, read]

/-! ## Any number of calls -/

/-- A shared roster that holds what its log tells. -/
structure Tells (log : List Entry) (s : Shared) : Prop where
  inForce : s.inForce < s.editions.length
  nodup : s.roster.names.Nodup
  mem : ∀ x, x ∈ s.roster.names ↔ ∃ t, latest? x log = some (t, .register x)
  order : s.roster.names.Pairwise fun x y => since log x < since log y

/-- A call that is granted speaks of one listener, and this is the latest that is said of it. -/
theorem Tells.granted (h : Tells log s) (hc : c.Fits s.roster.names) :
    Tells (log ++ [⟨c, true⟩]) (s.call c).1 := by
  have hroster := roster_of_fits h.nodup hc
  have hothers {y z : Listener} (hy : y ≠ c.listener) (hz : z ≠ c.listener)
      (hlt : since log y < since log z) :
      since (log ++ [⟨c, true⟩]) y < since (log ++ [⟨c, true⟩]) z := by
    simpa only [since_of_ne hy, since_of_ne hz] using hlt
  constructor
  · simp [call_of_fits h.nodup hc]
  · rw [hroster]
    exact nodup_edit h.nodup hc
  · intro y
    rw [hroster]
    by_cases hy : y = c.listener
    · rw [hy, latest?_granted]
      cases c <;> simp [Call.edit, Call.listener]
    · rw [latest?_of_ne hy, ← h.mem y]
      exact mem_edit_of_ne hy _
  · rw [hroster]
    cases c with
    | register x =>
      have hne {y : Listener} (hy : y ∈ s.roster.names) : y ≠ x := fun heq => hc (heq ▸ hy)
      refine List.pairwise_append.mpr ⟨?_, List.pairwise_singleton _ _, ?_⟩
      · exact h.order.imp_of_mem fun hy hz hlt => hothers (hne hy) (hne hz) hlt
      · -- The newcomer's place is the end of the log.
        intro y hy z hz
        obtain ⟨t, ht⟩ := (h.mem y).mp hy
        rw [List.mem_singleton.mp hz, since_of_ne (hne hy), since, ht]
        exact lt_of_lt_of_eq (lt_of_latest? ht) (since_granted log (.register x)).symm
    | unregister x =>
      have hne {y : Listener} (hy : y ∈ s.roster.names.filter (· != x)) : y ≠ x := by
        simpa using (List.mem_filter.mp hy).2
      exact (h.order.filter _).imp_of_mem fun hy hz hlt => hothers (hne hy) (hne hz) hlt

theorem Tells.call (h : Tells log s) (c : Call) :
    Tells (log ++ [⟨c, (s.call c).2⟩]) (s.call c).1 := by
  by_cases hc : c.Fits s.roster.names
  · have hgranted := h.granted hc
    rwa [call_of_fits h.nodup hc] at hgranted ⊢
  · rw [call_of_not_fits h.nodup hc]
    exact ⟨h.inForce, h.nodup, fun x => by rw [latest?_refused, h.mem], by
      simpa only [since, latest?_refused] using h.order⟩

theorem Tells.empty : Tells [] {} where
  inForce := Nat.one_pos
  nodup := List.nodup_nil
  mem x := by simp [roster, read, latest?]
  order := List.Pairwise.nil

theorem Tells.after (h : Tells log s) (calls : List Call) :
    Tells (log ++ s.log calls) (s.after calls) := by
  induction calls generalizing log s with
  | nil => simpa [Shared.log, Shared.after] using h
  | cons c calls ih => simpa [Shared.log, Shared.after] using ih (h.call c)

/-! ## Snapshots -/

/-- The editions of a shared roster only ever gain others. -/
theorem prefix_call (s : Shared) (c : Call) : s.editions <+: (s.call c).1.editions := by
  unfold call
  split
  · exact List.prefix_append _ _
  · exact List.prefix_rfl

theorem prefix_after (s : Shared) (calls : List Call) :
    s.editions <+: (s.after calls).editions := by
  induction calls generalizing s with
  | nil => exact List.prefix_rfl
  | cons c calls ih => exact (s.prefix_call c).trans (ih _)

/-- What stands in an edition stays in it, whatever is called. -/
theorem read_after {n : Nat} (h : n < s.editions.length) (calls : List Call) :
    (s.after calls).read n = s.read n := by
  obtain ⟨added, hadded⟩ := prefix_after s calls
  rw [read, ← hadded, List.getElem?_append_left h, read]

/-- After any calls, a roster holds nobody twice. It holds who was registered last, in the order in
which they were. A call is granted exactly if it fits, it edits what is held if it is granted, and
changes nothing otherwise. A snapshot shows what was held when it was taken, however many calls come
after it. -/
theorem a_roster_is_told_by_its_log (calls : List Call) :
    let s := ({} : Shared).after calls
    let log := ({} : Shared).log calls
    s.roster.names.Nodup ∧
      (∀ x, x ∈ s.roster.names ↔ ∃ t, latest? x log = some (t, .register x)) ∧
      (s.roster.names.Pairwise fun x y => since log x < since log y) ∧
      (∀ c : Call, s.call c =
        if c.Fits s.roster.names then
          ({ editions := s.editions ++ [⟨c.edit s.roster.names⟩], inForce := s.editions.length },
            true)
        else (s, false)) ∧
      (∀ c : Call, c.Fits s.roster.names → (s.call c).1.roster = ⟨c.edit s.roster.names⟩) ∧
      ∀ later, (s.after later).read s.inForce = s.roster := by
  intro s log
  have htells : Tells log s := Tells.empty.after calls
  refine ⟨htells.nodup, htells.mem, htells.order, fun c => ?_, fun c => roster_of_fits htells.nodup,
    read_after htells.inForce⟩
  split <;> rename_i hc
  · exact call_of_fits htells.nodup hc
  · exact call_of_not_fits htells.nodup hc

end Shared

end Roster

end Metronome
