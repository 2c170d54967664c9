-- What a clock can be asked, and what it answers. A call is plain data, so
-- a listener's behaviour can be looked at before it runs.
import Metronome.Error
import Metronome.Budget
import Metronome.Feed
import Metronome.Pinning
import Metronome.Roster
import Metronome.Timing.Jitter

namespace Metronome

/-- The thread on which a tick is dispatched. -/
inductive Thread where
  /-- The one that started the run. -/
  | caller
  | scheduler
  deriving DecidableEq, Repr

/-- A change of pace that waits for the end of the tick. -/
inductive Pending where
  | none
  | toSimulated
  | toRealTime
  deriving DecidableEq, Repr

/-- Parts of a run, taken one by one. They bring a clock into states that no
single public call reaches. -/
inductive Override where
  | setStage (s : Stage)
  | beginTicking
  | runRealTime
  | runSimulated
  | runLoop
  | applyPending
  | pending
  | counter
  | setCounter (n : Nat)
  deriving DecidableEq, Repr

inductive Call where
  -- the budget of the tick
  | consume (amount : Int)
  | consumeAll
  | budget
  -- listeners
  | register (x : Listener)
  | unregister (x : Listener)
  -- the run
  | start
  | stop
  | tick
  | interrupt
  | switchToRealTime
  | switchToSimulated
  -- the feed
  | subscribe (wanted : Option (List Event))
  | drain (i : Nat)
  | letGo (i : Nat)
  | watchers
  -- views
  | time
  | ticking
  | info
  | mode
  | stage
  | pinned
  | pins
  | period
  | stamps
  | intervals
  | deviations
  | jitter
  | pauseTime (nanos : Nat)
  | override (o : Override)
  deriving DecidableEq, Repr

inductive Answer where
  | done
  | flag (b : Bool)
  | number (n : Int)
  | budget (b : Budget)
  | info (tickLength : Int) (unit : TimeUnit)
  | mode (m : Mode)
  | stage (s : Stage)
  | notices (l : Option (List Notice))
  | pins (p : Pins)
  | period (d : Duration)
  | stamps (l : List Stamp)
  | intervals (l : List Interval)
  | deviations (l : List Deviation)
  | jitter (j : Jitter)
  | pending (p : Pending)
  | refused (e : BudgetError)
  | error (e : ClockError)
  | fault (f : Fault)
  /-- The clock has no such call here. -/
  | unavailable
  deriving DecidableEq, Repr

namespace Answer

def ofExcept : Except ClockError Unit → Answer
  | .ok _ => .done
  | .error e => .error e

/-- An answer that may be a fault instead. -/
def orFault {α : Type} (f : α → Answer) : Except Fault α → Answer
  | .ok a => f a
  | .error e => .fault e

/-- The text of an answer that is an error. -/
def errorText? : Answer → Option String
  | .refused e => some e.message
  | .error e => some e.message
  | _ => none

end Answer

end Metronome
