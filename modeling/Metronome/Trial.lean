-- A trial run of a clock. Three listeners take part: one times the ticks,
-- one consumes half of every budget, and a driver ends the run or changes
-- its pace.
import Metronome.Blueprint
import Metronome.Report

namespace Metronome

/-- What the driver of a trial does. -/
structure Drive where
  /-- At this tick it stops the clock. -/
  limit : Option Nat := none
  /-- At this tick it goes over to simulated time. -/
  switchAfter : Option Nat := none
  /-- So many ticks later it goes back to real time. -/
  simulatedTicks : Nat := 0
  deriving DecidableEq, Repr

/-- Why a trial gives no report. -/
inductive TrialProblem where
  | tickHasNoDuration
  | clock (e : ClockError)
  | fault (f : Fault)
  deriving DecidableEq, Repr

namespace Trial

/-! ## Listeners -/

def logger : Listener := "logger"

def load : Listener := "load"

def driver : Listener := "driver"

def listeners : List Listener := [logger, load, driver]

/-- What the listeners know. -/
structure World where
  log : TickLog
  /-- How long the dispatches take. -/
  durations : Nat → UInt64
  /-- The ticks that the driver has seen. -/
  ticks : Nat := 0

/-- Ends a callback as the answer to its last call says. -/
def finish (w : World) (a : Answer) : Program World :=
  match a.errorText? with
  | some text => .finish w (.failed text)
  | none => .finish w .fine

/-- Times a tick from its first callback to its second. -/
def keepTime (phase : Phase) (w : World) : Program World :=
  let log := match phase with
    | .tick => w.log.begin
    | .after => w.log.finishNext w.durations
  .finish { w with log } .fine

def consumeHalf (w : World) : Program World :=
  .ask .budget fun a =>
    match a with
    | .budget b => .ask (.consume b.half) (finish w)
    | a => finish w a

/-- Changes the pace, if this is the tick for it. -/
def changePace (d : Drive) (w : World) : Program World :=
  match d.switchAfter with
  | none => .finish w .fine
  | some first =>
    if w.ticks = first then .ask .switchToSimulated (finish w)
    else
      match Unsigned.add first d.simulatedTicks with
      | .error f => .finish w (.panicked f.message)
      | .ok back =>
        if w.ticks = back then .ask .switchToRealTime (finish w) else .finish w .fine

def drive (d : Drive) (w : World) : Program World :=
  let w := { w with ticks := w.ticks + 1 }
  if d.limit = some w.ticks then
    .ask .stop fun a =>
      match a.errorText? with
      | some text => .finish w (.failed text)
      | none => changePace d w
  else changePace d w

def behave (d : Drive) : Behaviour World := fun v w =>
  if v.listener = logger then keepTime v.phase w
  else
    match v.phase with
    | .after => .finish w .fine
    | .tick => if v.listener = load then consumeHalf w else drive d w

/-! ## Trials -/

/-- A clock that is watched and has the listeners of a trial. -/
def prepare {P : Type} (c : Clock P) : Except ClockError (Clock P) :=
  listeners.foldlM Clock.register { c with feed := (c.feed.subscribe none).1 }

def report {P : Type} (mode : Mode) (ticks : Nat) (jitter : Option Jitter) (c : Clock P)
    (w : World) : Except TrialProblem Report := do
  let log ← w.log.stats.mapError .fault
  return {
    mode
    finalTime := c.time
    unit := c.unit
    ticks
    log
    jitter
    events := ((c.feed.drain 0).2).getD []
    counters := w.log.exported.counters }

/-- So many ticks in simulated time. Without a tick there is no run. -/
def simulated (settings : Settings) (ticks : Nat) (durations : Nat → UInt64) :
    Except TrialProblem Report := do
  let period ← settings.tickDuration?.elim (.error .tickHasNoDuration) .ok
  let clock ← (({ settings } : Blueprint).buildSimulated.bind prepare).mapError .clock
  let world : World := { log := .make period .silent TickLog.standardCapacity, durations }
  if ticks = 0 then report .simulated ticks none clock world
  else
    match SimulatedClock.start (SimulatedClock.dispatch (behave { limit := some ticks }))
      (clock, world) with
    | (_, .error e) => .error (.clock e)
    | ((clock, world), .ok ()) => report .simulated ticks none clock world

/-! ## Trials in real time -/

/-- A simulated tick is taken to last so many nanoseconds. -/
def simulatedTickNanos : Nat := 5000

/-- How long it takes from a step of one leg to the next step. A real-time leg that goes on waits
for its next period, and one that is over does not. -/
def stepNanos (period work : Nat) (leg next : RealTimeClock.Leg) : Nat :=
  match leg, next with
  | .choosing, _ => 0
  | .realTime, .realTime => max (max period work) 1
  | .realTime, _ => work
  | .simulated, _ => simulatedTickNanos + work

/-- Both clocks of the machine show the nanoseconds since the beginning. -/
def showTime (now : Nat) (c : RealTimeClock) : RealTimeClock :=
  { c with pacing.watch := fun _ => ⟨(now / 1000000 : Nat), now⟩ }

/-- The run goes on until `stop` nanoseconds have passed. Then the clock is stopped. -/
def runUntil (d : Drive) (work stop : Nat) :
    Nat → Nat → RealTimeClock.Leg → RealTimeClock × World →
      (RealTimeClock × World) × RealTimeClock.Ending
  | 0, _, _, st => (st, .fine)
  | n + 1, now, leg, (c, w) =>
    let c := showTime now c
    let c := if stop ≤ now then (RealTimeClock.stop c).toOption.getD c else c
    match RealTimeClock.step (RealTimeClock.dispatch (behave d)) leg (c, w) with
    | (st, .inr ending) => (st, ending)
    | (st, .inl next) =>
      runUntil d work stop n (now + stepNanos c.pacing.period.nanos work leg next) next st

/-- So many steps that even the shortest ones fill the time. -/
def enoughSteps (stop : Nat) : Nat := 2 * stop + 16

/-- A run in real time for so long. Nobody waits for it: its clocks show what they should. -/
def realTime (settings : Settings) (d : Drive) (length work : Duration)
    (durations : Nat → UInt64) (openLog : PauseSettings → Pause.Source) :
    Except TrialProblem Report := do
  let clock ← ((({ settings } : Blueprint).buildRealTime openLog fun _ => ⟨0, 0⟩).bind
    prepare).mapError .clock
  let world : World :=
    { log := .make clock.pacing.period clock.pacing.pauses TickLog.standardCapacity, durations }
  match RealTimeClock.launch clock with
  | .error (.failed e) => .error (.clock e)
  | .error (.broken f) => .error (.fault f)
  | .error .fine => report .realTime 0 none clock world
  | .ok clock =>
    match runUntil d work.nanos length.nanos (enoughSteps length.nanos) 0 .choosing
      (clock, world) with
    | (_, .failed e) => .error (.clock e)
    | (_, .broken f) => .error (.fault f)
    | ((clock, world), .fine) =>
      let clock := RealTimeClock.conclude clock
      let jitter ← (RealTimeClock.jitter clock).2.mapError .fault
      report .realTime world.ticks jitter clock world

end Trial

end Metronome
