-- What came of a trial run, and how it is printed.
import Metronome.Json.Printer
import Metronome.Stored
import Metronome.Timing.Jitter

namespace Metronome

structure Report where
  /-- Real time or simulated time. -/
  mode : Mode
  finalTime : Int
  unit : TimeUnit
  ticks : Nat
  log : TickLog.Stats
  /-- Only a real-time run has jitter. -/
  jitter : Option Jitter := none
  events : List Notice
  /-- What was counted during the run. -/
  counters : List (String × Nat)

def Notice.toData (n : Notice) : Data :=
  .object [("event_type", n.event.toData), ("time", .integer n.time)]

def Jitter.toData (j : Jitter) : Data :=
  .object [("samples", Data.ofNat j.samples), ("period_ns", .integer j.period),
    ("mean_inter_arrival_ns", .real j.mean), ("min_inter_arrival_ns", .integer j.least),
    ("max_inter_arrival_ns", .integer j.greatest), ("std_dev_ns", .real j.standardDeviation),
    ("mean_abs_deviation_ns", .real j.meanDeviation),
    ("max_abs_deviation_ns", .integer j.greatestDeviation),
    ("p99_abs_deviation_ns", .integer j.p99Deviation), ("pause_ns", Data.ofNat j.pause)]

namespace Report

def modeName (r : Report) : String := if r.mode = .simulated then "simulated" else "realtime"

/-- The report of a run that took so many milliseconds. -/
def toData (r : Report) (elapsedMillis : Nat) : Data :=
  .object (
    [("mode", .string r.modeName), ("final_time", .integer r.finalTime),
      ("time_unit", r.unit.toData), ("ticks", Data.ofNat r.ticks),
      ("elapsed_ms", Data.ofNat elapsedMillis), ("tick_log", r.log.toData)] ++
    (r.jitter.map fun j => ("jitter", j.toData)).toList ++
    [("events", .list (r.events.map Notice.toData))])

/-- A line for each counter. -/
def counterLines (r : Report) : List String := r.counters.map fun c => c.1 ++ " " ++ toString c.2

end Report

end Metronome
