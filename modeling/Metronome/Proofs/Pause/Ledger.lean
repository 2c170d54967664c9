-- A window beside a plain ledger. The ledger goes through all of its pauses at
-- every change. The window looks for the place of a new pause from the back,
-- forgets from the front and counts from the back. Since its pauses stand in
-- order, it holds the same ones.
import Metronome.Proofs.Pause.Memory
import Mathlib.Data.List.Induction

namespace Metronome

namespace Pause

namespace Window

/-! ## The ledger -/

/-- The latest moment at which one of the pauses was seen. -/
def latest (l : List PauseEvent) : Nat := ((l.map (·.occurredAt)).max?).getD 0

/-- What a change does to a list of pauses. A new pause comes behind all that are not later, and
then those are kept that lie no more than the horizon before the latest. -/
def Change.enter (horizon : Nat) (l : List PauseEvent) : Change → List PauseEvent
  | .record e =>
    let l := (l.filter fun x => x.occurredAt ≤ e.occurredAt) ++
      e :: l.filter fun x => e.occurredAt < x.occurredAt
    since (latest l - horizon) l
  | .prune now => since (now - horizon) l
  | .clear => []

/-- What changes make of an empty list. -/
def ledger (horizon : Nat) (changes : List Change) : List PauseEvent :=
  changes.foldl (Change.enter horizon) []

/-- No two of the pauses lie farther apart than the horizon. -/
def Near (horizon : Nat) (l : List PauseEvent) : Prop :=
  ∀ x ∈ l, ∀ y ∈ l, y.occurredAt ≤ x.occurredAt + horizon

/-! ## The latest pause -/

variable {w : Window} {l : List PauseEvent} {horizon : Nat}

theorem le_latest {x : PauseEvent} (h : x ∈ l) : x.occurredAt ≤ latest l := by
  have hmem : x.occurredAt ∈ l.map (·.occurredAt) := List.mem_map_of_mem h
  unfold latest
  cases hmax : (l.map (·.occurredAt)).max? with
  | none =>
    rw [List.max?_eq_none_iff.mp hmax] at hmem
    cases hmem
  | some t => exact (List.max?_eq_some_iff.mp hmax).2 _ hmem

/-- Among entries in order the last one is the latest. -/
theorem Ordered.latest_of_getLast? (h : Ordered l) {x : PauseEvent} (hx : l.getLast? = some x) :
    latest l = x.occurredAt := by
  have hlast : ∀ y ∈ l, y.occurredAt ≤ x.occurredAt := by
    obtain ⟨front, rfl⟩ := List.getLast?_eq_some_iff.mp hx
    intro y hy
    rcases List.mem_append.mp hy with hy | hy
    · exact (List.pairwise_append.mp h).2.2 y hy x (List.mem_singleton.mpr rfl)
    · rw [List.mem_singleton.mp hy]
  have hmax : (l.map (·.occurredAt)).max? = some x.occurredAt := by
    refine List.max?_eq_some_iff.mpr ⟨List.mem_map_of_mem (List.mem_of_getLast? hx), ?_⟩
    intro t ht
    obtain ⟨y, hy, rfl⟩ := List.mem_map.mp ht
    exact hlast y hy
  rw [latest, hmax, Option.getD_some]

/-- What is kept after a record lies near the latest. -/
theorem near_since_latest (horizon : Nat) (l : List PauseEvent) :
    Near horizon (since (latest l - horizon) l) := by
  intro x hx y hy
  have hx' := of_decide_eq_true (List.mem_filter.mp hx).2
  have hy' := le_latest (List.mem_filter.mp hy).1
  omega

/-! ## One change and all changes -/

/-- A window whose entries stand in order records a pause as a ledger does. -/
theorem Ordered.record_eq (h : Ordered w.entries) (e : PauseEvent) :
    w.record e = { w with entries := (Change.record e).enter w.horizon w.entries } := by
  have hinsert := h.insert_eq e
  have hordered := h.insert e
  have hlatest : (((Window.insert e w.entries).getLast?.map (·.occurredAt)).getD e.occurredAt) =
      latest (Window.insert e w.entries) := by
    cases hlast : (Window.insert e w.entries).getLast? with
    | none =>
      rw [List.getLast?_eq_none_iff, hinsert] at hlast
      simp at hlast
    | some x => exact (hordered.latest_of_getLast? hlast).symm
  unfold record
  dsimp only
  rw [prune_eq hordered, hlatest, hinsert]
  rfl

/-- So it is with every change. -/
theorem Ordered.change_eq (h : Ordered w.entries) (c : Change) :
    w.change c = { w with entries := c.enter w.horizon w.entries } := by
  cases c with
  | record e => exact h.record_eq e
  | prune now => exact prune_eq h now
  | clear => rfl

/-- Every change of a ledger keeps the order. -/
theorem Ordered.enter (h : Ordered l) (horizon : Nat) (c : Change) :
    Ordered (c.enter horizon l) := by
  cases c with
  | record e =>
    have hinsert := h.insert e
    rw [h.insert_eq e] at hinsert
    exact hinsert.since _
  | prune now => exact h.since _
  | clear => exact List.Pairwise.nil

theorem ledger_concat (horizon : Nat) (changes : List Change) (c : Change) :
    ledger horizon (changes ++ [c]) = c.enter horizon (ledger horizon changes) := by
  simp [ledger]

theorem ledger_ordered (horizon : Nat) (changes : List Change) :
    Ordered (ledger horizon changes) := by
  induction changes using List.reverseRecOn with
  | nil => exact List.Pairwise.nil
  | append_singleton changes c ih =>
    rw [ledger_concat]
    exact ih.enter horizon c

/-- A window behind its changes holds the ledger of these changes. -/
theorem behind_eq (horizon : Nat) (changes : List Change) :
    behind horizon changes = { horizon, entries := ledger horizon changes } := by
  induction changes using List.reverseRecOn with
  | nil => rfl
  | append_singleton changes c ih =>
    have hordered : Ordered (behind horizon changes).entries := by
      rw [ih]
      exact ledger_ordered horizon changes
    have hstep : behind horizon (changes ++ [c]) = (behind horizon changes).change c := by
      simp [behind]
    rw [hstep, hordered.change_eq c, ih, ledger_concat]

/-! ## The law -/

/-- Behind whatever changes, a window holds what the plain ledger holds. Its entries stand in order,
after a record they lie no farther apart than the horizon, and a question about any moment is
answered by all entries of its time, unless they are too many to be counted. -/
theorem a_window_is_a_plain_ledger (horizon : Nat) (changes : List Change) :
    (behind horizon changes).entries = ledger horizon changes ∧
    Ordered (ledger horizon changes) ∧
    (∀ e, Near horizon (behind horizon (changes ++ [.record e])).entries) ∧
    ∀ now length,
      let answer := span (during (now - min length horizon) now (ledger horizon changes))
      (behind horizon changes).total now length =
        if Unsigned.Fits answer then .ok answer else .error .sumTooLarge := by
  have hbehind := behind_eq horizon changes
  have hordered := ledger_ordered horizon changes
  refine ⟨by rw [hbehind], hordered, fun e => ?_, fun now length => ?_⟩
  · rw [behind_eq, ledger_concat]
    exact near_since_latest horizon _
  · have hentries : Ordered (behind horizon changes).entries := by rw [hbehind]; exact hordered
    have hsum (l : List PauseEvent) : (l.reverse.map (·.duration)).sum = span l :=
      ((List.reverse_perm l).map (·.duration)).sum_nat
    rw [total_eq hentries, Unsigned.sum_eq, hsum, hbehind]

/-- Two pauses of one moment stay in the order in which they came, one that comes late finds its
place before them, and a pause far ahead drives the older ones out. -/
example :
    let changes : List Change := [.record ⟨20, 1⟩, .record ⟨20, 2⟩, .record ⟨13, 4⟩]
    ledger 10 changes = [⟨13, 4⟩, ⟨20, 1⟩, ⟨20, 2⟩] ∧
      ledger 10 (changes ++ [.record ⟨25, 8⟩]) = [⟨20, 1⟩, ⟨20, 2⟩, ⟨25, 8⟩] := by
  decide

end Window

end Pause

end Metronome
