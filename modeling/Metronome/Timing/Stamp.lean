-- The stamps of real-time ticks, the intervals between them, and how far
-- each interval is from the nominal period.
import Metronome.Range

namespace Metronome

/-- When a real-time tick began, on the wall clock and on the monotonic clock. -/
structure Stamp where
  /-- The place of the tick in its segment, from zero. -/
  tickCount : Nat
  wallMillis : Int
  nanos : Int
  deriving DecidableEq, Repr

/-- Two ticks, one right after the other. -/
structure Interval where
  start : Stamp
  stop : Stamp
  deriving DecidableEq, Repr

namespace Interval

/-- The second stamp must carry the next count and must not be earlier. -/
def between? (a b : Stamp) : Except Fault (Option Interval) :=
  (Unsigned.add a.tickCount 1).map fun next =>
    if b.tickCount = next ∧ a.nanos ≤ b.nanos then some ⟨a, b⟩ else none

/-- The time from one tick to the next. -/
def arrival (i : Interval) : Except Fault Int := Signed.sub i.stop.nanos i.start.nanos

end Interval

/-- The intervals between neighbours, where there are any. -/
def intervals : List Stamp → Except Fault (List Interval)
  | a :: b :: rest =>
    match Interval.between? a b, intervals (b :: rest) with
    | .ok i, .ok is => .ok (i.toList ++ is)
    | .error f, _ => .error f
    | _, .error f => .error f
  | _ => .ok []

/-! ## Deviations -/

/-- How far a tick was from its nominal time. -/
structure Deviation where
  /-- The interval less the period. A late tick has a positive one. -/
  deviation : Int
  /-- What brings the schedule back to its ideal line. -/
  correction : Int
  stamp : Stamp
  deriving DecidableEq, Repr

namespace Deviation

/-- The deviation of `b`, which follows `a` in a segment that began with `origin`. -/
def measure (origin a b : Stamp) (period : Int) : Except Fault Deviation := do
  let arrival ← Signed.sub b.nanos a.nanos
  let run ← Signed.mul (Signed.wrap ((b.tickCount : Int) - origin.tickCount)) period
  let ideal ← Signed.add origin.nanos run
  let deviation ← Signed.sub arrival period
  let correction ← Signed.sub ideal b.nanos
  return ⟨deviation, correction, b⟩

/-- The deviations behind `a`. A gap in the counts begins a new segment. -/
def follow (period : Int) (origin a : Stamp) : List Stamp → Except Fault (List Deviation)
  | [] => .ok []
  | b :: rest => do
    let next ← Unsigned.add a.tickCount 1
    if b.tickCount = next then
      let d ← measure origin a b period
      let ds ← follow period origin b rest
      return d :: ds
    else follow period b b rest

end Deviation

/-- One deviation for every stamp that carries the count after its predecessor's. -/
def deviations (stamps : List Stamp) (period : Int) : Except Fault (List Deviation) :=
  match stamps with
  | [] => .ok []
  | a :: rest => Deviation.follow period a a rest

end Metronome
