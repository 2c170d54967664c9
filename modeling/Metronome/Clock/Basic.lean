-- What every clock has: its time, its two flags, its listeners, its feed,
-- and the budget of the tick. How ticks are paced is left open.
import Metronome.Budget
import Metronome.Error
import Metronome.Feed
import Metronome.Roster

namespace Metronome

/-- A clock whose pacing is described by `P`. -/
structure Clock (P : Type) where
  tickLength : Int
  unit : TimeUnit
  time : Int := 0
  /-- A run or a single tick is in progress. -/
  ticking : Bool := false
  /-- Someone asked for an end after the current tick. -/
  interrupted : Bool := false
  roster : Roster := {}
  feed : Feed := {}
  budget : Budget := .blank unit
  /-- The budget is lent out to a dispatch. -/
  dispatching : Bool := false
  pacing : P

namespace Clock

variable {P : Type}

/-! ## Flags -/

/-- A new run forgets an old interrupt. A clock that ticks already stays as it is. -/
def beginTicking (c : Clock P) : Clock P :=
  if c.ticking then c else { c with ticking := true, interrupted := false }

def endTicking (c : Clock P) : Clock P := { c with ticking := false }

def interrupt (c : Clock P) : Clock P := { c with interrupted := true }

/-! ## Listeners and watchers -/

def register (c : Clock P) (x : Listener) : Except ClockError (Clock P) :=
  match c.roster.register? x with
  | some roster => .ok { c with roster }
  | none => .error .listenerAlreadyRegistered

/-- Takes a listener off the roster, and says whether it was there. -/
def unregister (c : Clock P) (x : Listener) : Clock P × Bool :=
  match c.roster.unregister? x with
  | some roster => ({ c with roster }, true)
  | none => (c, false)

def publish (c : Clock P) (e : Event) : Clock P :=
  { c with feed := c.feed.publish ⟨e, c.time⟩ }

/-- How many whole ticks fit before the time leaves its range. -/
def ticksLeft (c : Clock P) : Nat := ((Signed.greatest - c.time) / c.tickLength).toNat

end Clock

end Metronome
