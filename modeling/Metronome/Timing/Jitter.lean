-- A summary of the intervals between real-time ticks.
import Metronome.Timing.Stamp
import Metronome.Timing.Percentile

namespace Metronome

structure Jitter where
  samples : Nat := 0
  period : Int
  mean : Rat := 0
  least : Int := 0
  greatest : Int := 0
  standardDeviation : Rat := 0
  meanDeviation : Rat := 0
  greatestDeviation : Int := 0
  p99Deviation : Int := 0
  /-- The pause time within the measured span. -/
  pause : Nat
  deriving DecidableEq, Repr

namespace Jitter

/-- How far an interval is from the period, late or early. -/
def distance (period arrival : Int) : Except Fault Int := do
  Signed.magnitude (← Signed.sub arrival period)

/-- The mean of whole numbers, rounded at every step. -/
def meanOf (l : List Int) : Rat :=
  Binary64.div (Binary64.sum (l.map Binary64.ofInt)) (Binary64.ofInt l.length)

/-- The mean of the squared distances from `mean`. -/
def variance (l : List Int) (mean : Rat) : Rat :=
  let square (a : Int) : Rat :=
    let d := Binary64.sub (Binary64.ofInt a) mean
    Binary64.mul d d
  Binary64.div (Binary64.sum (l.map square)) (Binary64.ofInt l.length)

def ofArrivals (arrivals distances : List Int) (period : Int) (pause : Nat) : Jitter :=
  let sorted := distances.mergeSort fun a b => decide (a ≤ b)
  let mean := meanOf arrivals
  { samples := arrivals.length
    period
    mean
    least := arrivals.min?.getD 0
    greatest := arrivals.max?.getD 0
    standardDeviation := Binary64.sqrt (variance arrivals mean)
    meanDeviation := meanOf sorted
    greatestDeviation := sorted.getLast?.getD 0
    p99Deviation := (percentile? sorted (thousandths 990)).getD 0
    pause }

/-- No interval, no jitter. -/
def ofIntervals (intervals : List Interval) (period : Int) (pause : Nat) : Except Fault Jitter :=
  if intervals = [] then .ok { period, pause }
  else do
    let arrivals ← intervals.mapM Interval.arrival
    let distances ← arrivals.mapM (distance period)
    return ofArrivals arrivals distances period pause

end Jitter

end Metronome
