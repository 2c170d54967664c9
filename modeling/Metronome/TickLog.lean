-- How long the dispatch of each tick takes. The log keeps a bounded
-- history, counts the ticks that overran the nominal period, and asks a
-- pause source what may have held them up.
import Metronome.TimeUnit
import Metronome.Pause.Source
import Metronome.Timing.Percentile

namespace Metronome

/-- What was counted since the log was made. A reset leaves it alone. -/
structure Exported where
  ticks : Nat := 0
  slowTicks : Nat := 0
  /-- Every dispatch, newest first. -/
  samples : List Nat := []
  deriving DecidableEq, Repr

/-- The counters that have counted anything, by their names. -/
def Exported.counters (e : Exported) : List (String × Nat) :=
  [("simulation_clock_ticks_total", e.ticks),
    ("simulation_clock_slow_ticks_total", e.slowTicks)].filter fun c => c.2 ≠ 0

structure TickLog where
  /-- The nominal period in nanoseconds. -/
  nominal : Nat
  pauses : Pause.Source
  /-- Places for the dispatches that are kept. The ticks fill them in turn, over and over. -/
  ring : List Nat
  ticks : Nat := 0
  slowTicks : Nat := 0
  last : Nat := 0
  longest : Nat := 0
  attributed : Nat := 0
  /-- A tick has begun and is not over. -/
  timing : Bool := false
  exported : Exported := {}

namespace TickLog

/-- How many dispatches a log keeps when nothing else is said. -/
def standardCapacity : Nat := 1024

def make (nominal : Duration) (pauses : Pause.Source) (capacity : Nat) : TickLog :=
  { nominal := nominal.clamped, pauses, ring := .replicate (max capacity 1) 0 }

/-- Adds one dispatch of that many nanoseconds. -/
def record (log : TickLog) (nanos : Nat) : TickLog :=
  let log :=
    { log with
      ring := log.ring.set (log.ticks % log.ring.length) nanos
      ticks := Unsigned.wrap (log.ticks + 1)
      last := nanos
      longest := max log.longest nanos
      exported :=
        { log.exported with
          ticks := log.exported.ticks + 1
          samples := nanos :: log.exported.samples } }
  if log.nominal < nanos then
    let (pauses, paused) := log.pauses.ask nanos
    { log with
      pauses
      slowTicks := Unsigned.wrap (log.slowTicks + 1)
      attributed := Unsigned.wrap (log.attributed + paused)
      exported := { log.exported with slowTicks := log.exported.slowTicks + 1 } }
  else log

/-- Forgets all but what was exported and asked. -/
def reset (log : TickLog) : TickLog :=
  { log with
    ring := log.ring.map fun _ => 0
    ticks := 0, slowTicks := 0, last := 0, longest := 0, attributed := 0
    timing := false }

/-- A tick begins. -/
def begin (log : TickLog) : TickLog := { log with timing := true }

/-- A tick is over. Without a beginning it does not count. -/
def finish (log : TickLog) (nanos : Nat) : TickLog :=
  if log.timing then { log with timing := false }.record nanos else log

/-- A tick is over. `durations` tells of every dispatch how many nanoseconds it takes, in their
order. -/
def finishNext (log : TickLog) (durations : Nat → UInt64) : TickLog :=
  log.finish (durations log.exported.ticks).toNat

/-! ## Statistics -/

structure Stats where
  ticks : Nat
  slowTicks : Nat
  last : Nat
  average : Nat
  longest : Nat
  p95 : Nat
  p99 : Nat
  attributed : Nat
  deriving DecidableEq, Repr

/-- The whole part of the mean. -/
def average (l : List Nat) : Except Fault Nat :=
  if l = [] then .ok 0 else (Unsigned.sum l).map fun total => total / l.length

/-- The dispatches that are kept. A place that no tick has filled yet holds none. -/
def kept (log : TickLog) : List Nat := log.ring.take (min log.ticks log.ring.length)

/-- The average and the percentiles speak of the dispatches that are kept. -/
def stats (log : TickLog) : Except Fault Stats :=
  let sorted := ascending log.kept
  (average sorted).map fun average =>
    { ticks := log.ticks
      slowTicks := log.slowTicks
      last := log.last
      average
      longest := log.longest
      p95 := (percentile? sorted (thousandths 950)).getD 0
      p99 := (percentile? sorted (thousandths 990)).getD 0
      attributed := log.attributed }

end TickLog

end Metronome
