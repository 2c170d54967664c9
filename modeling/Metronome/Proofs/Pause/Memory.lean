-- What a window remembers. It forgets whatever lies more than its horizon
-- before some moment that it hears of. Who asks about a moment that is no
-- earlier than all of those cannot tell.
import Metronome.Pause.Window
import Mathlib.Algebra.Ring.Nat
import Mathlib.Data.List.Perm.Basic

namespace Metronome

namespace Unsigned

/-- A sum fits if and only if all its parts from the left do. -/
theorem sum_eq (l : List Nat) :
    sum l = if Fits l.sum then .ok l.sum else .error .sumTooLarge := by
  suffices h : ∀ n, Fits n →
      l.foldlM add n = if Fits (n + l.sum) then .ok (n + l.sum) else .error .sumTooLarge by
    have h0 := h 0 (by decide)
    rw [Nat.zero_add] at h0
    exact h0
  induction l with
  | nil =>
    intro n hn
    simp [hn, pure, Except.pure]
  | cons x xs ih =>
    intro n hn
    rw [List.foldlM_cons, List.sum_cons, ← Nat.add_assoc]
    by_cases hx : Fits (n + x)
    · have hadd : add n x = .ok (n + x) := if_pos hx
      rw [hadd]
      exact ih (n + x) hx
    · have hadd : add n x = .error .sumTooLarge := if_neg hx
      have hsum : ¬ Fits (n + x + xs.sum) := by
        unfold Fits at hx ⊢
        omega
      rw [hadd, if_neg hsum]
      rfl

end Unsigned

namespace Pause

namespace Window

/-! ## Changes -/

/-- What is done to a window. -/
inductive Change where
  | record (e : PauseEvent)
  | prune (now : Nat)
  | clear
  deriving DecidableEq, Repr

def change (w : Window) : Change → Window
  | .record e => w.record e
  | .prune now => w.prune now
  | .clear => w.clear

/-- A window behind its changes. -/
def behind (horizon : Nat) (changes : List Change) : Window := changes.foldl change { horizon }

/-- The changes since all was forgotten, after one more. -/
def Change.onto (lately : List Change) : Change → List Change
  | .clear => []
  | c => lately ++ [c]

/-- The changes since the window was new or cleared. -/
def lately (changes : List Change) : List Change := changes.foldl Change.onto []

def Change.pause? : Change → Option PauseEvent
  | .record e => some e
  | _ => none

/-- The moment that a change speaks of. -/
def Change.moment? : Change → Option Nat
  | .record e => some e.occurredAt
  | .prune now => some now
  | .clear => none

/-- All pauses that were recorded, in the order in which they were. -/
def recorded (changes : List Change) : List PauseEvent := changes.filterMap Change.pause?

def moments (changes : List Change) : List Nat := changes.filterMap Change.moment?

/-- The pauses that were not over before the cutoff. -/
def since (cutoff : Nat) (l : List PauseEvent) : List PauseEvent :=
  l.filter fun e => cutoff ≤ e.occurredAt

/-- The pauses from the cutoff to `now`. -/
def during (cutoff now : Nat) (l : List PauseEvent) : List PauseEvent :=
  l.filter fun e => cutoff ≤ e.occurredAt ∧ e.occurredAt ≤ now

/-- How long pauses were together. -/
def span (l : List PauseEvent) : Nat := (l.map (·.duration)).sum

/-! ## Entries in order -/

/-- The entries stand in order of time. -/
def Ordered (l : List PauseEvent) : Prop := l.Pairwise fun a b => a.occurredAt ≤ b.occurredAt

theorem takeWhile_eq_filter {α : Type} {p : α → Bool} {l : List α}
    (h : l.Pairwise fun a b => p b = true → p a = true) : l.takeWhile p = l.filter p := by
  induction h with
  | nil => rfl
  | @cons a l ha _ ih =>
    cases hp : p a with
    | true => rw [List.takeWhile_cons_of_pos hp, List.filter_cons_of_pos hp, ih]
    | false =>
      have hnone : ∀ b ∈ l, ¬ p b = true := fun b hb hpb => by simp [ha b hb hpb] at hp
      rw [List.takeWhile_cons_of_neg (by simp [hp]), List.filter_cons_of_neg (by simp [hp]),
        List.filter_eq_nil_iff.mpr hnone]

theorem dropWhile_eq_filter {α : Type} {p : α → Bool} {l : List α}
    (h : l.Pairwise fun a b => p b = true → p a = true) :
    l.dropWhile p = l.filter fun a => !p a := by
  induction h with
  | nil => rfl
  | @cons a l ha _ ih =>
    cases hp : p a with
    | true => rw [List.dropWhile_cons_of_pos hp, List.filter_cons_of_neg (by simp [hp]), ih]
    | false =>
      have hall : ∀ b ∈ l, (!p b) = true := fun b hb => by
        cases hpb : p b with
        | false => rfl
        | true => simp [ha b hb hpb] at hp
      rw [List.dropWhile_cons_of_neg (by simp [hp]), List.filter_cons_of_pos (by simp [hp]),
        List.filter_eq_self.mpr hall]

theorem insertIdx_length_append {α : Type} (l r : List α) (x : α) :
    (l ++ r).insertIdx l.length x = l ++ x :: r := by
  induction l with
  | nil => rfl
  | cons y l ih => simp [ih]

variable {w : Window} {e : PauseEvent} {l : List PauseEvent} {now cutoff : Nat}

theorem insert_perm (e : PauseEvent) (l : List PauseEvent) : (insert e l).Perm (e :: l) := by
  have hplace : place e l ≤ l.reverse.length := (List.dropWhile_sublist _).length_le
  rw [List.length_reverse] at hplace
  exact List.perm_insertIdx e l hplace

/-- Entries in order are those that are not later than `t`, and behind them those that are. -/
theorem Ordered.split (h : Ordered l) (t : Nat) :
    (l.filter fun x => x.occurredAt ≤ t) ++ (l.filter fun x => t < x.occurredAt) = l := by
  have hearly : l.Pairwise fun a b => decide (b.occurredAt ≤ t) = true →
      decide (a.occurredAt ≤ t) = true := h.imp fun hab hb => by
    simp only [decide_eq_true_eq] at hb ⊢
    omega
  have hlate : (l.dropWhile fun x => x.occurredAt ≤ t) = l.filter fun x => t < x.occurredAt := by
    rw [dropWhile_eq_filter hearly]
    refine List.filter_congr fun x _ => ?_
    simp only [← decide_not, Nat.not_le]
  rw [← takeWhile_eq_filter hearly, ← hlate, List.takeWhile_append_dropWhile]

/-- A new entry among entries in order stands behind all that are not later. -/
theorem Ordered.insert_eq (h : Ordered l) (e : PauseEvent) :
    Window.insert e l = (l.filter fun x => x.occurredAt ≤ e.occurredAt) ++
      e :: l.filter fun x => e.occurredAt < x.occurredAt := by
  have hback : l.reverse.Pairwise fun a b => b.occurredAt ≤ a.occurredAt :=
    List.pairwise_reverse.mpr h
  have hdrop := dropWhile_eq_filter (p := fun x => decide (e.occurredAt < x.occurredAt))
    (hback.imp fun hab hb => by
      simp only [decide_eq_true_eq] at hb ⊢
      omega)
  have hplace : place e l = (l.filter fun x => x.occurredAt ≤ e.occurredAt).length := by
    unfold place
    rw [hdrop, List.filter_reverse, List.length_reverse]
    congr 1
    refine List.filter_congr fun x _ => ?_
    simp only [← decide_not, Nat.not_lt]
  have hinsert := insertIdx_length_append (l.filter fun x => x.occurredAt ≤ e.occurredAt)
    (l.filter fun x => e.occurredAt < x.occurredAt) e
  rwa [h.split, ← hplace] at hinsert

theorem Ordered.insert (h : Ordered l) (e : PauseEvent) : Ordered (Window.insert e l) := by
  rw [h.insert_eq e]
  refine List.pairwise_append.mpr ⟨h.filter _, List.pairwise_cons.mpr ⟨?_, h.filter _⟩, ?_⟩
  · intro y hy
    exact Nat.le_of_lt (of_decide_eq_true (List.mem_filter.mp hy).2)
  · intro x hx y hy
    have hxe : x.occurredAt ≤ e.occurredAt := of_decide_eq_true (List.mem_filter.mp hx).2
    rcases List.mem_cons.mp hy with rfl | hy
    · exact hxe
    · have hey : e.occurredAt < y.occurredAt := of_decide_eq_true (List.mem_filter.mp hy).2
      omega

theorem Ordered.since (h : Ordered l) (cutoff : Nat) : Ordered (since cutoff l) := h.filter _

/-- A prune keeps what is no older than the horizon. -/
theorem prune_eq (h : Ordered w.entries) (now : Nat) :
    w.prune now = { w with entries := since (now - w.horizon) w.entries } := by
  have hdrop := dropWhile_eq_filter (p := fun e => decide (e.occurredAt < now - w.horizon))
    (h.imp fun hab hb => by
      simp only [decide_eq_true_eq] at hb ⊢
      omega)
  unfold prune since
  rw [hdrop]
  congr 1
  refine List.filter_congr fun e _ => ?_
  simp only [← decide_not, Nat.not_lt]

/-- A question is answered by all entries of its time, latest first. -/
theorem within_eq (h : Ordered w.entries) (now length : Nat) :
    w.within now length = (during (now - min length w.horizon) now w.entries).reverse := by
  have hback : w.entries.reverse.Pairwise fun a b => b.occurredAt ≤ a.occurredAt :=
    List.pairwise_reverse.mpr h
  have hdrop := dropWhile_eq_filter (p := fun e => decide (now < e.occurredAt))
    (hback.imp fun hab hb => by
      simp only [decide_eq_true_eq] at hb ⊢
      omega)
  unfold within during
  dsimp only
  rw [hdrop]
  have htake := takeWhile_eq_filter
    (p := fun e => decide (now - min length w.horizon ≤ e.occurredAt))
    ((hback.filter fun e => !decide (now < e.occurredAt)).imp fun hab hb => by
      simp only [decide_eq_true_eq] at hb ⊢
      omega)
  rw [htake, List.filter_filter, ← List.filter_reverse]
  refine List.filter_congr fun e _ => ?_
  simp only [Bool.decide_and, ← decide_not, Nat.not_lt]

/-- The answer to a question, from the entries of its time. -/
theorem total_eq (h : Ordered w.entries) (now length : Nat) :
    w.total now length =
      Unsigned.sum
        ((during (now - min length w.horizon) now w.entries).reverse.map (·.duration)) := by
  unfold total
  rw [within_eq h]

/-! ## What is remembered -/

theorem since_since {now t horizon : Nat} (h : t ≤ now) (l : List PauseEvent) :
    since (now - horizon) (since (t - horizon) l) = since (now - horizon) l := by
  unfold since
  rw [List.filter_filter]
  refine List.filter_congr fun e _ => ?_
  simp only [← Bool.decide_and, decide_eq_decide]
  omega

theorem during_since {length horizon : Nat} (l : List PauseEvent) :
    during (now - min length horizon) now (since (now - horizon) l) =
      during (now - min length horizon) now l := by
  unfold since during
  rw [List.filter_filter]
  refine List.filter_congr fun e _ => ?_
  simp only [← Bool.decide_and, decide_eq_decide]
  omega

/-- The window remembers what counts at every moment that is no earlier than those it was told of:
the pauses of a horizon before, in some order. -/
structure Recalls (horizon : Nat) (w : Window) (changes : List Change) : Prop where
  horizon_eq : w.horizon = horizon
  ordered : Ordered w.entries
  told : ∀ e ∈ w.entries, e.occurredAt ∈ moments changes
  recalled : ∀ now, (∀ t ∈ moments changes, t ≤ now) →
    (since (now - horizon) w.entries).Perm (since (now - horizon) (recorded changes))

namespace Recalls

variable {horizon : Nat} {changes : List Change}

theorem new (horizon : Nat) : Recalls horizon { horizon } [] where
  horizon_eq := rfl
  ordered := List.Pairwise.nil
  told := fun _ he => by cases he
  recalled := fun _ _ => List.Perm.refl _

/-- To forget what is too old for a moment that the window was told of does no harm. -/
theorem forget (h : Recalls horizon w changes) {t : Nat} (ht : t ∈ moments changes) :
    Recalls horizon (w.prune t) changes := by
  rw [prune_eq h.ordered]
  refine ⟨h.horizon_eq, h.ordered.since _, ?_, ?_⟩
  · intro e he
    exact h.told e (List.mem_of_mem_filter he)
  · intro now hnow
    dsimp only
    rw [h.horizon_eq, since_since (hnow t ht)]
    exact h.recalled now hnow

/-- The window with one more entry, before it forgets. -/
theorem keep (h : Recalls horizon w changes) (e : PauseEvent) :
    Recalls horizon { w with entries := Window.insert e w.entries } (changes ++ [.record e]) := by
  have hmoments : moments (changes ++ [.record e]) = moments changes ++ [e.occurredAt] := by
    simp [moments, Change.moment?]
  have hrecorded : recorded (changes ++ [.record e]) = recorded changes ++ [e] := by
    simp [recorded, Change.pause?]
  refine ⟨h.horizon_eq, h.ordered.insert e, ?_, ?_⟩
  · intro x hx
    rw [hmoments]
    rcases List.mem_cons.mp ((insert_perm e w.entries).mem_iff.mp hx) with rfl | hx
    · exact List.mem_append_right _ (List.mem_singleton.mpr rfl)
    · exact List.mem_append_left _ (h.told x hx)
  · intro now hnow
    rw [hmoments] at hnow
    have hbefore := h.recalled now fun t ht => hnow t (List.mem_append_left _ ht)
    rw [hrecorded]
    calc since (now - horizon) (Window.insert e w.entries)
        |>.Perm (since (now - horizon) ([e] ++ w.entries)) := (insert_perm e w.entries).filter _
      _ |>.Perm (since (now - horizon) ([e] ++ recorded changes)) := by
          unfold since
          rw [List.filter_append, List.filter_append]
          exact hbefore.append_left _
      _ |>.Perm (since (now - horizon) (recorded changes ++ [e])) :=
          List.perm_append_comm.filter _

theorem record (h : Recalls horizon w changes) (e : PauseEvent) :
    Recalls horizon (w.record e) (changes ++ [.record e]) := by
  have hkept := h.keep e
  unfold Window.record
  dsimp only
  refine hkept.forget ?_
  cases hlast : (Window.insert e w.entries).getLast? with
  | none => simp [moments, Change.moment?]
  | some x => exact hkept.told x (List.mem_of_getLast? hlast)

theorem prune (h : Recalls horizon w changes) (t : Nat) :
    Recalls horizon (w.prune t) (changes ++ [.prune t]) := by
  have hmoments : moments (changes ++ [.prune t]) = moments changes ++ [t] := by
    simp [moments, Change.moment?]
  have hrecorded : recorded (changes ++ [.prune t]) = recorded changes := by
    simp [recorded, Change.pause?]
  have hheard : Recalls horizon w (changes ++ [.prune t]) := by
    refine ⟨h.horizon_eq, h.ordered, ?_, ?_⟩
    · intro e he
      rw [hmoments]
      exact List.mem_append_left _ (h.told e he)
    · intro now hnow
      rw [hmoments] at hnow
      rw [hrecorded]
      exact h.recalled now fun s hs => hnow s (List.mem_append_left _ hs)
  refine hheard.forget ?_
  rw [hmoments]
  exact List.mem_append_right _ (List.mem_singleton.mpr rfl)

theorem change (h : Recalls horizon w changes) (c : Change) :
    Recalls horizon (w.change c) (c.onto changes) := by
  cases c with
  | record e => exact h.record e
  | prune t => exact h.prune t
  | clear =>
    have hclear : w.change .clear = { horizon } := by
      rw [← h.horizon_eq]
      rfl
    rw [hclear]
    exact new horizon

theorem run (more : List Change) (h : Recalls horizon w changes) :
    Recalls horizon (more.foldl Window.change w) (more.foldl Change.onto changes) := by
  induction more generalizing w changes with
  | nil => exact h
  | cons c more ih => exact ih (h.change c)

/-- The entries of the time asked about are the recorded pauses of that time. -/
theorem during (h : Recalls horizon w changes) (hnow : ∀ t ∈ moments changes, t ≤ now)
    (length : Nat) :
    (during (now - min length horizon) now w.entries).Perm
      (during (now - min length horizon) now (recorded changes)) := by
  rw [← during_since w.entries, ← during_since (recorded changes)]
  exact (h.recalled now hnow).filter _

end Recalls

theorem behind_recalls (horizon : Nat) (changes : List Change) :
    Recalls horizon (behind horizon changes) (lately changes) :=
  (Recalls.new horizon).run changes

/-- Who asks at a moment that is no earlier than all that the window was told of since it was
cleared hears of all pauses that were recorded since then, as if none had been forgotten. -/
theorem total_behind {horizon : Nat} {changes : List Change}
    (h : ∀ t ∈ moments (lately changes), t ≤ now) (length : Nat) :
    (behind horizon changes).total now length =
      Unsigned.sum
        ((during (now - min length horizon) now (recorded (lately changes))).map (·.duration)) := by
  have hrecalls := behind_recalls horizon changes
  have hperm := hrecalls.during h length
  rw [total_eq hrecalls.ordered, hrecalls.horizon_eq, Unsigned.sum_eq, Unsigned.sum_eq,
    (((List.reverse_perm _).trans hperm).map (·.duration)).sum_nat]

/-! ## The law -/

/-- What a window forgets is never missed. The answer is that of a memory that keeps all pauses
recorded since the last time it was cleared, and their order does not matter. -/
theorem forgotten_pauses_are_never_missed (horizon now length : Nat) (changes : List Change)
    (h : ∀ t ∈ moments (lately changes), t ≤ now) :
    let answer := span (during (now - min length horizon) now (recorded (lately changes)))
    ((behind horizon changes).total now length =
      if Unsigned.Fits answer then .ok answer else .error .sumTooLarge) ∧
    ∀ others, (∀ t ∈ moments (lately others), t ≤ now) →
      (recorded (lately others)).Perm (recorded (lately changes)) →
      (behind horizon others).total now length = (behind horizon changes).total now length := by
  refine ⟨?_, ?_⟩
  · rw [total_behind h, Unsigned.sum_eq]
    rfl
  · intro others hothers hperm
    have hsame : (during (now - min length horizon) now (recorded (lately others))).Perm
        (during (now - min length horizon) now (recorded (lately changes))) := hperm.filter _
    rw [total_behind h, total_behind hothers, Unsigned.sum_eq, Unsigned.sum_eq,
      (hsame.map (·.duration)).sum_nat]

/-- Six changes after a clear: a prune that empties the window, a pause older than that prune and
one that comes out of order. -/
theorem a_window_emptied_too_early_is_not_missed :
    let changes : List Change := [.record ⟨3, 50⟩, .clear, .record ⟨4, 1⟩, .prune 30,
      .record ⟨15, 2⟩, .record ⟨27, 4⟩, .record ⟨22, 8⟩]
    (behind 10 changes).entries = [⟨22, 8⟩, ⟨27, 4⟩] ∧
    (behind 10 changes).total 31 100 = .ok 12 := by
  refine ⟨by decide, ?_⟩
  have h := (forgotten_pauses_are_never_missed 10 31 100 [.record ⟨3, 50⟩, .clear,
    .record ⟨4, 1⟩, .prune 30, .record ⟨15, 2⟩, .record ⟨27, 4⟩, .record ⟨22, 8⟩] (by decide)).1
  exact h

end Window

end Pause

end Metronome
