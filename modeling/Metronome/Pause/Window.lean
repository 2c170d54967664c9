-- The pauses of the recent past, oldest first. A window forgets what is
-- older than its horizon.
import Metronome.Range

namespace Metronome

/-- A pause and the moment at which it was seen, in nanoseconds. -/
structure PauseEvent where
  occurredAt : Nat
  duration : Nat
  deriving DecidableEq, Repr

namespace Pause

structure Window where
  horizon : Nat
  entries : List PauseEvent := []
  deriving DecidableEq, Repr

namespace Window

/-- The place behind the last entry that is not later, looked for from the back. -/
def place (e : PauseEvent) (l : List PauseEvent) : Nat :=
  (l.reverse.dropWhile fun x => e.occurredAt < x.occurredAt).length

def insert (e : PauseEvent) (l : List PauseEvent) : List PauseEvent := l.insertIdx (place e l) e

/-- Forgets what lies more than a horizon before `now`. -/
def prune (w : Window) (now : Nat) : Window :=
  { w with entries := w.entries.dropWhile fun e => e.occurredAt < now - w.horizon }

/-- Keeps the entries in order of time and prunes to the latest. -/
def record (w : Window) (e : PauseEvent) : Window :=
  let entries := insert e w.entries
  prune { w with entries } ((entries.getLast?.map (·.occurredAt)).getD e.occurredAt)

/-- The pauses seen from `now - length` to `now`. No window reaches beyond the horizon. -/
def within (w : Window) (now length : Nat) : List PauseEvent :=
  let cutoff := now - min length w.horizon
  (w.entries.reverse.dropWhile fun e => now < e.occurredAt).takeWhile fun e => cutoff ≤ e.occurredAt

/-- How long these pauses were together. -/
def total (w : Window) (now length : Nat) : Except Fault Nat :=
  Unsigned.sum ((w.within now length).map (·.duration))

def clear (w : Window) : Window := { w with entries := [] }

end Window

end Pause

end Metronome
