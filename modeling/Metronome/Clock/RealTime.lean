-- The real-time clock. A run goes leg by leg: real-time legs tick on the
-- scheduler thread, simulated legs on the thread that started the run, and
-- between two legs a pending change of pace is granted.
import Metronome.Clock.Pacing

namespace Metronome

namespace RealTimeClock

variable {σ : Type}

/-- A ticker for each thread. -/
abbrev Tickers (σ : Type) := Thread → Ticker Pacing σ

def make (settings : Settings) (stage : Stage) (period : Duration) (pins : Pins)
    (pauses : Pause.Source) (watch : Nat → Reading) : RealTimeClock :=
  { tickLength := settings.tickLength
    unit := settings.unit
    pacing := { stage, settings := settings.scheduler, period, pins, pauses, watch } }

/-! ## Steps of a leg -/

/-- How a leg goes on after a step. -/
inductive Progress where
  | more
  | finished
  | failed (e : ClockError)
  deriving DecidableEq, Repr

/-- One step of a real-time leg: a run of the scheduled task, unless it was told to end. -/
def scheduledStep (tick : Tickers σ) (st : RealTimeClock × σ) : (RealTimeClock × σ) × Progress :=
  if st.1.pacing.cancelled ∨ ¬ st.1.ticking then (st, .finished)
  else
    match tick .scheduler (st.1.stamp, st.2) with
    | (st, .error e) => (st, .failed e)
    | (st, .ok .interrupted) => (st, .finished)
    | (st, .ok .completed) =>
      if st.1.ticking ∧ st.1.pacing.pending ≠ .toSimulated then (st, .more) else (st, .finished)

/-- One step of a simulated leg: a tick, unless real time is asked for. -/
def freeStep (tick : Tickers σ) (st : RealTimeClock × σ) : (RealTimeClock × σ) × Progress :=
  if st.1.ticking ∧ st.1.pacing.pending ≠ .toRealTime then
    match tick .caller st with
    | (st, .error e) => (st, .failed e)
    | (st, .ok .interrupted) => (st, .finished)
    | (st, .ok .completed) => (st, .more)
  else (st, .finished)

/-! ## Runs -/

/-- Where a run stands between two ticks. -/
inductive Leg where
  | choosing
  | realTime
  | simulated
  deriving DecidableEq, Repr

/-- How a run ends. -/
inductive Ending where
  | fine
  | failed (e : ClockError)
  | broken (f : Fault)
  deriving DecidableEq, Repr

/-- A real-time leg begins. It needs the scheduler thread, and its task is new. -/
def schedule (c : RealTimeClock) : Except Fault RealTimeClock :=
  c.ensureScheduler.map fun c => { c with pacing.cancelled := false }

/-- What a leg's progress means for the run. -/
def follow (leg : Leg) : (RealTimeClock × σ) × Progress → (RealTimeClock × σ) × (Leg ⊕ Ending)
  | (st, .more) => (st, .inl leg)
  | ((c, world), .finished) =>
    match c.applyPending with
    | .ok c => ((c, world), .inl .choosing)
    | .error e => ((c, world), .inr (.failed e))
  | (st, .failed e) => (st, .inr (.failed e))

/-- One step of a run, with one tick at most. -/
def step (tick : Tickers σ) (leg : Leg) (st : RealTimeClock × σ) :
    (RealTimeClock × σ) × (Leg ⊕ Ending) :=
  match leg with
  | .choosing =>
    if st.1.ticking then
      match st.1.pacing.stage with
      | .realTimeRunning =>
        match st.1.schedule with
        | .ok c => ((c, st.2), .inl .realTime)
        | .error f => (st, .inr (.broken f))
      | .simulatedRunning => (st, .inl .simulated)
      | _ => (st, .inr .fine)
    else (st, .inr .fine)
  | .realTime => follow .realTime (scheduledStep tick st)
  | .simulated => follow .simulated (freeStep tick st)

/-- So many steps of a run, or fewer if it ends. -/
def steps (tick : Tickers σ) : Nat → Leg → RealTimeClock × σ → (RealTimeClock × σ) × (Leg ⊕ Ending)
  | 0, leg, st => (st, .inl leg)
  | n + 1, leg, st =>
    match step tick leg st with
    | (st, .inl leg) => steps tick n leg st
    | (st, .inr ending) => (st, .inr ending)

/-- So many steps of one leg, or fewer if it ends. -/
def legSteps (step : RealTimeClock × σ → (RealTimeClock × σ) × Progress) :
    Nat → RealTimeClock × σ → (RealTimeClock × σ) × Progress
  | 0, st => (st, .more)
  | n + 1, st =>
    match step st with
    | (st, .more) => legSteps step n st
    | r => r

/-- More steps than any run of this clock has. Between two ticks there are at most three. -/
def enoughSteps (c : RealTimeClock) : Nat := 4 * c.ticksLeft + 8

/-- The result of a run that came to its end. -/
def ending : Leg ⊕ Ending → Ending
  | .inl _ => .fine
  | .inr e => e

/-- The loop over the legs. -/
def runLoop (tick : Tickers σ) (st : RealTimeClock × σ) : (RealTimeClock × σ) × Ending :=
  let r := steps tick st.1.enoughSteps .choosing st
  (r.1, ending r.2)

/-- The beginning of a run, up to the event that tells of it. -/
def launch (c : RealTimeClock) : Except Ending RealTimeClock :=
  if c.pacing.stage.isRunning then .error (.failed .alreadyRunning)
  else
    match c.pacing.stage.on .start with
    | .error i => .error (.failed (.illegalTransition i))
    | .ok next =>
      let ready :=
        if next = .realTimeRunning then
          c.ensureScheduler.map fun c => { c with pacing.counter := 0 }
        else .ok c
      match ready with
      | .error f => .error (.broken f)
      | .ok c => .ok (({ c with pacing.stage := next }.beginTicking).publish .started)

/-- The run is over for all to see. A clock that someone stopped is so already. -/
def close (c : RealTimeClock) : RealTimeClock :=
  if c.pacing.stage.isRunning then { c with pacing.stage := .stopped } else c

/-- The end of a run. Nothing of it is left, whoever ended it. -/
def conclude (c : RealTimeClock) : RealTimeClock :=
  (releaseScheduler c.close.endTicking).publish .stopped

/-- A run from its beginning to its end. -/
def start (tick : Tickers σ) (st : RealTimeClock × σ) : (RealTimeClock × σ) × Ending :=
  match launch st.1 with
  | .error e => (st, e)
  | .ok c =>
    match runLoop tick (c, st.2) with
    | (st, .broken f) => (st, .broken f)
    | ((c, world), ending) => ((c.conclude, world), ending)

/-! ## Calls -/

def Ending.answer : Ending → Answer
  | .fine => .done
  | .failed e => .error e
  | .broken f => .fault f

def Progress.ending : Progress → Ending
  | .failed e => .failed e
  | _ => .fine

/-- One real-time leg on its own. Outside real time there is none. -/
def runRealTime (tick : Tickers σ) (st : RealTimeClock × σ) : (RealTimeClock × σ) × Ending :=
  if st.1.pacing.stage = .realTimeRunning then
    match st.1.schedule with
    | .error f => (st, .broken f)
    | .ok c =>
      let r := legSteps (scheduledStep tick) c.enoughSteps (c, st.2)
      (r.1, r.2.ending)
  else (st, .fine)

/-- One simulated leg on its own. -/
def runSimulated (tick : Tickers σ) (st : RealTimeClock × σ) : (RealTimeClock × σ) × Ending :=
  let r := legSteps (freeStep tick) st.1.enoughSteps st
  (r.1, r.2.ending)

/-- A change that may be refused. A refusal leaves the clock as it was. -/
def settle (st : RealTimeClock × σ) : Except ClockError RealTimeClock → (RealTimeClock × σ) × Answer
  | .ok c => ((c, st.2), .done)
  | .error e => (st, .error e)

def override (tick : Tickers σ) (o : Override) (st : RealTimeClock × σ) :
    (RealTimeClock × σ) × Answer :=
  let (c, world) := st
  match o with
  | .setStage s => (({ c with pacing.stage := s }, world), .done)
  | .beginTicking => ((c.beginTicking, world), .flag !c.ticking)
  | .runRealTime => let r := runRealTime tick st; (r.1, r.2.answer)
  | .runSimulated => let r := runSimulated tick st; (r.1, r.2.answer)
  | .runLoop => let r := runLoop tick st; (r.1, r.2.answer)
  | .applyPending => settle st c.applyPending
  | .pending => (st, .pending c.pacing.pending)
  | .counter => (st, .number c.pacing.counter)
  | .setCounter n => (({ c with pacing.counter := n }, world), .done)

/-- The answer to a call, where a tick is what `tick` does. -/
def answer (tick : Tickers σ) (call : Call) (st : RealTimeClock × σ) :
    (RealTimeClock × σ) × Answer :=
  let (c, world) := st
  match call with
  | .start => let r := start tick st; (r.1, r.2.answer)
  | .stop => settle st c.stop
  | .tick => (st, .error .singleStepUnsupported)
  | .interrupt => ((c.interrupt, world), .done)
  | .switchToRealTime => settle st c.switchToRealTime
  | .switchToSimulated => settle st c.switchToSimulated
  | .register x => settle st (c.register x)
  | .unregister x => let r := c.unregister x; ((r.1, world), .flag r.2)
  | .subscribe wanted =>
    let r := c.feed.subscribe wanted
    (({ c with feed := r.1 }, world), .number r.2)
  | .drain i =>
    let r := c.feed.drain i
    (({ c with feed := r.1 }, world), .notices r.2)
  | .letGo i => (({ c with feed := c.feed.drop i }, world), .done)
  | .watchers => (st, .number c.feed.size)
  | .time => (st, .number c.time)
  | .ticking => (st, .flag c.ticking)
  | .info => (st, .info c.tickLength c.unit)
  | .mode => (st, .mode c.mode)
  | .stage => (st, .stage c.pacing.stage)
  | .pinned => (st, .flag c.isPinned)
  | .pins => (st, .pins c.pacing.pins)
  | .period => (st, .period c.pacing.period)
  | .stamps => (st, .stamps c.pacing.stamps)
  | .intervals => (st, .orFault .intervals (Metronome.intervals c.pacing.stamps))
  | .deviations => (st, .orFault .deviations (Metronome.deviations c.pacing.stamps c.periodNanos))
  | .jitter => let r := c.jitter; ((r.1, world), .orFault .jitter r.2)
  | .pauseTime nanos =>
    let r := c.pacing.pauses.ask nanos
    (({ c with pacing.pauses := r.1 }, world), .number r.2)
  | .override o => override tick o st
  | .consume _ => (st, .unavailable)
  | .consumeAll => (st, .unavailable)
  | .budget => (st, .unavailable)

/-- A call from inside a tick. It can start no other tick. -/
def serve : Service Pacing := fun c call =>
  let r := answer (σ := Unit) (fun _ => Clock.reentrant) call (c, ())
  (r.1.1, r.2)

/-- Ticks with real callbacks. -/
def dispatch (behave : Behaviour σ) : Tickers σ := fun thread => Clock.tick serve behave thread

/-- A call from outside. -/
def perform (behave : Behaviour σ) (call : Call) (st : RealTimeClock × σ) :
    (RealTimeClock × σ) × Answer :=
  answer (dispatch behave) call st

end RealTimeClock

end Metronome
