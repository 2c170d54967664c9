-- What paces a real-time clock: its stage, a change of pace that waits for
-- the end of the tick, the scheduler thread, and the stamps of its ticks.
import Metronome.Clock.Tick
import Metronome.Pause.Source
import Metronome.Settings

namespace Metronome

/-- What the wall clock and the monotonic clock show at one moment. -/
structure Reading where
  wallMillis : Int
  nanos : Int
  deriving DecidableEq, Repr

/-- A scheduler thread that is there. -/
structure Scheduler where
  pinned : Bool
  deriving DecidableEq, Repr

structure Pacing where
  stage : Stage
  pending : Pending := .none
  /-- Ticks of the present real-time segment. -/
  counter : Nat := 0
  /-- The stamps that are kept, oldest first. -/
  stamps : List Stamp := []
  /-- How many readings were taken. -/
  readings : Nat := 0
  /-- What the clocks show at each reading. -/
  watch : Nat → Reading
  scheduler : Option Scheduler := none
  /-- The scheduled task was told to end. -/
  cancelled : Bool := false
  settings : SchedulerSettings
  period : Duration
  pins : Pins := {}
  pauses : Pause.Source := .silent

abbrev RealTimeClock := Clock Pacing

/-- The last `n` of a list. -/
def keepLast {α : Type} (n : Nat) (l : List α) : List α := l.drop (l.length - n)

namespace RealTimeClock

def periodNanos (c : RealTimeClock) : Int := min (c.pacing.period.nanos : Int) Signed.greatest

def isPinned (c : RealTimeClock) : Bool :=
  match c.pacing.scheduler with
  | some s => s.pinned
  | none => false

def mode (c : RealTimeClock) : Mode := c.pacing.stage.mode

/-! ## The scheduler thread -/

/-- Starts the scheduler thread if there is none, and pins it if that is wished and works. -/
def ensureScheduler (c : RealTimeClock) : Except Fault RealTimeClock :=
  match c.pacing.scheduler with
  | some _ => .ok c
  | none =>
    if c.pacing.settings.threadCanStart then
      match c.pacing.settings.targetCore? with
      | none => .ok { c with pacing.scheduler := some ⟨false⟩ }
      | some core =>
        let r := c.pacing.pins.attempt core
        .ok { c with pacing := { c.pacing with pins := r.1, scheduler := some ⟨r.2⟩ } }
    else .error .threadNameHasNul

/-- Gives the pin of a scheduler thread back if it has one. -/
def unpin (c : RealTimeClock) (s : Scheduler) : RealTimeClock :=
  if s.pinned then { c with pacing.pins := c.pacing.pins.release } else c

/-- Ends the scheduled task and the scheduler thread, and gives the pin back if there is one. -/
def releaseScheduler (c : RealTimeClock) : RealTimeClock :=
  match c.pacing.scheduler with
  | none => c
  | some s =>
    unpin { c with pacing := { c.pacing with scheduler := none, cancelled := true } } s

/-! ## Stamps -/

/-- Stamps the tick that is about to run. The oldest stamp makes room for it. -/
def stamp (c : RealTimeClock) : RealTimeClock :=
  let p := c.pacing
  let reading := p.watch p.readings
  let s : Stamp := ⟨p.counter, reading.wallMillis, reading.nanos⟩
  { c with pacing := { p with
      stamps := keepLast p.settings.maxStamps (p.stamps ++ [s])
      counter := Unsigned.wrap (p.counter + 1)
      readings := p.readings + 1 } }

/-- The time from the first stamp to the last. -/
def span (l : List Stamp) : Except Fault Nat :=
  match l.head?, l.getLast? with
  | some first, some last => (Signed.sub last.nanos first.nanos).map Int.toNat
  | _, _ => .ok 0

/-- The jitter of the stamps that are kept. Pauses are asked for only if time has passed. -/
def jitter (c : RealTimeClock) : RealTimeClock × Except Fault Jitter :=
  match span c.pacing.stamps with
  | .error f => (c, .error f)
  | .ok nanos =>
    let r := if 0 < nanos then c.pacing.pauses.ask nanos else (c.pacing.pauses, 0)
    ({ c with pacing.pauses := r.1 },
      (intervals c.pacing.stamps).bind fun l => Jitter.ofIntervals l c.periodNanos r.2)

/-! ## Changes of pace -/

/-- Tells the watchers of a new pace. -/
def publishMode (c : RealTimeClock) : Mode → RealTimeClock
  | .realTime => c.publish .switchToRealTime
  | .simulated => c.publish .switchToSimTime
  | .stopped => c

/-- Moves to another stage, and tells the watchers if that changes the pace. -/
def moveTo (c : RealTimeClock) (next : Stage) : RealTimeClock :=
  let moved := { c with pacing.stage := next }
  if next.mode = c.mode then moved else publishMode moved next.mode

/-- What a request for real time leaves pending. In real time it takes back a wish for
simulated time, and in simulated time it stands until the end of the tick. -/
def wishRealTime : Stage → Pending → Pending
  | .realTimeRunning, .toSimulated => .none
  | .simulatedRunning, _ => .toRealTime
  | _, pending => pending

/-- What a request for simulated time leaves pending. Only a clock that runs in real
time notes it, and only if nothing else is pending. -/
def wishSimulated : Stage → Pending → Pending
  | .realTimeRunning, .none => .toSimulated
  | _, pending => pending

def switchToRealTime (c : RealTimeClock) : Except ClockError RealTimeClock :=
  let stage := c.pacing.stage
  if stage = .initRealTime then .ok c
  else
    match stage.on .requestRealTime with
    | .error i => .error (.illegalTransition i)
    | .ok next =>
      .ok (moveTo { c with pacing.pending := wishRealTime stage c.pacing.pending } next)

def switchToSimulated (c : RealTimeClock) : Except ClockError RealTimeClock :=
  let stage := c.pacing.stage
  if stage = .initSimulated then .ok c
  else
    match stage.on .requestSimulated with
    | .error i => .error (.illegalTransition i)
    | .ok next =>
      .ok (moveTo { c with pacing.pending := wishSimulated stage c.pacing.pending } next)

/-- The trigger that a pending wish becomes at the end of a tick. -/
def boundaryTrigger? : Pending → Stage → Option Trigger
  | .toSimulated, .realTimeRunning => some .doSimulated
  | .toRealTime, .simulatedRunning => some .doRealTime
  | _, _ => none

/-- Grants or forgets the pending wish. A new real-time segment counts from zero. -/
def applyPending (c : RealTimeClock) : Except ClockError RealTimeClock :=
  let cleared := { c with pacing.pending := .none }
  match boundaryTrigger? c.pacing.pending c.pacing.stage with
  | none => .ok cleared
  | some trigger =>
    match c.pacing.stage.on trigger with
    | .error i => .error (.illegalTransition i)
    | .ok next =>
      .ok (moveTo
        (if trigger = .doRealTime then { cleared with pacing.counter := 0 } else cleared) next)

/-! ## The end -/

/-- Moves to the last stage. A clock that was never started cannot be stopped. -/
def retire (c : RealTimeClock) : Except ClockError RealTimeClock :=
  match c.pacing.stage.on .stop with
  | .error i => .error (.illegalTransition i)
  | .ok next => .ok { c with pacing.stage := next }

/-- Ends the run, from whatever thread. -/
def stop (c : RealTimeClock) : Except ClockError RealTimeClock :=
  c.retire.map fun c => releaseScheduler c.endTicking

end RealTimeClock

end Metronome
