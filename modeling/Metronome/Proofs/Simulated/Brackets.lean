-- The notices of a simulated clock as brackets. A start that is not refused
-- opens one, and only the end of the latest open start closes it.
import Metronome.Feed
import Mathlib.Data.List.Range

namespace Metronome

namespace SimulatedClock

/-- A notice of a start or of an end, and the number of the start that it belongs to. -/
structure Sign where
  start : Nat
  notice : Notice
  deriving DecidableEq, Repr

/-- What one notice makes of the starts whose brackets are open, latest first. -/
def Sign.pair (running : List Nat) (s : Sign) : Option (List Nat) :=
  match s.notice.event, running with
  | .started, _ => some (s.start :: running)
  | .stopped, k :: below => if s.start = k then some below else none
  | _, _ => none

/-- The starts whose brackets are open, latest first, if all brackets match. -/
def nested (l : List Sign) : Option (List Nat) := l.foldlM Sign.pair []

/-- The starts that were heard of. -/
def opened (l : List Sign) : List Nat :=
  (l.filter fun s => s.notice.event = .started).map (·.start)

theorem nested_append (l : List Sign) (s : Sign) :
    nested (l ++ [s]) = (nested l).bind fun running => s.pair running := by
  unfold nested
  rw [List.foldlM_append]
  cases h : l.foldlM Sign.pair [] with
  | none => rfl
  | some running =>
    simp only [Option.bind_eq_bind, Option.bind_some, List.foldlM_cons, List.foldlM_nil]
    cases s.pair running <;> rfl

theorem opened_append_started (l : List Sign) (k : Nat) (time : Int) :
    opened (l ++ [⟨k, ⟨.started, time⟩⟩]) = opened l ++ [k] := by
  simp [opened]

theorem opened_append_stopped (l : List Sign) (k : Nat) (time : Int) :
    opened (l ++ [⟨k, ⟨.stopped, time⟩⟩]) = opened l := by
  simp [opened]

/-- All brackets match but for those of the starts that still run, and every start has one, unless
it was refused. -/
structure Bracketed (signs : List Sign) (running refused : List Nat) (starts : Nat) : Prop where
  pairs : nested signs = some running
  each : (opened signs ++ refused).Perm (List.range starts)

namespace Bracketed

variable {signs : List Sign} {running refused : List Nat} {starts : Nat}

theorem nil : Bracketed [] [] [] 0 where
  pairs := by simp [nested]
  each := by simp [opened]

theorem refuse (h : Bracketed signs running refused starts) :
    Bracketed signs running (refused ++ [starts]) (starts + 1) where
  pairs := h.pairs
  each := by
    rw [List.range_succ, ← List.append_assoc]
    exact h.each.append_right _

theorem start (h : Bracketed signs running refused starts) (time : Int) :
    Bracketed (signs ++ [⟨starts, ⟨.started, time⟩⟩]) (starts :: running) refused (starts + 1) where
  pairs := by simp [nested_append, h.pairs, Sign.pair]
  each := by
    rw [opened_append_started, List.range_succ, List.append_assoc]
    have hfirst : (opened signs ++ starts :: refused).Perm (starts :: (opened signs ++ refused)) :=
      List.perm_middle
    have hlast : (starts :: List.range starts).Perm (List.range starts ++ [starts]) :=
      (List.perm_append_singleton _ _).symm
    exact hfirst.trans ((h.each.cons _).trans hlast)

theorem stop {k : Nat} (h : Bracketed signs (k :: running) refused starts) (time : Int) :
    Bracketed (signs ++ [⟨k, ⟨.stopped, time⟩⟩]) running refused starts where
  pairs := by simp [nested_append, h.pairs, Sign.pair]
  each := by
    rw [opened_append_stopped]
    exact h.each

end Bracketed

end SimulatedClock

end Metronome
