-- The simulated clock: ticks run back to back on the thread that starts
-- them, until someone stops the clock or a callback fails.
import Metronome.Clock.Tick

namespace Metronome

abbrev SimulatedClock := Clock Unit

namespace SimulatedClock

variable {σ : Type}

def make (tickLength : Int) (unit : TimeUnit) : SimulatedClock :=
  { tickLength, unit, pacing := () }

/-! ## Runs -/

/-- Ticks while the clock ticks, at most so many times. There is no result yet if the
run goes on after that. -/
def run (tick : Ticker Unit σ) :
    Nat → SimulatedClock × σ → (SimulatedClock × σ) × Option (Except ClockError Unit)
  | 0, st => (st, none)
  | n + 1, st =>
    if st.1.ticking then
      match tick st with
      | (st, .ok .completed) => run tick n st
      | (st, .ok .interrupted) => (st, some (.ok ()))
      | ((c, world), .error e) => ((c.endTicking, world), some (.error e))
    else (st, some (.ok ()))

/-- The beginning of a run. -/
def launch (c : SimulatedClock) : Except ClockError SimulatedClock :=
  if c.ticking then .error .alreadyRunning else .ok (c.beginTicking.publish .started)

/-- The end of a run. -/
def conclude (c : SimulatedClock) : SimulatedClock := c.publish .stopped

/-- A run from its beginning to its end. It has one, since the time has one. -/
def start (tick : Ticker Unit σ) (st : SimulatedClock × σ) :
    (SimulatedClock × σ) × Except ClockError Unit :=
  match launch st.1 with
  | .error e => (st, .error e)
  | .ok c =>
    match run tick (c.ticksLeft + 1) (c, st.2) with
    | ((c, world), result) => ((c.conclude, world), result.getD (.ok ()))

def stop (c : SimulatedClock) : Except ClockError SimulatedClock :=
  if c.ticking then .ok c.endTicking else .error .notRunning

/-- Exactly one tick. -/
def single (tick : Ticker Unit σ) (st : SimulatedClock × σ) :
    (SimulatedClock × σ) × Except ClockError Unit :=
  if st.1.ticking then (st, .error .alreadyRunning)
  else
    match tick (st.1.beginTicking, st.2) with
    | ((c, world), r) => ((c.endTicking, world), r.map fun _ => ())

/-! ## Calls -/

/-- The answer to a call, where a tick is what `tick` does. -/
def answer (tick : Ticker Unit σ) (call : Call) (st : SimulatedClock × σ) :
    (SimulatedClock × σ) × Answer :=
  let (c, world) := st
  match call with
  | .start => let r := start tick st; (r.1, .ofExcept r.2)
  | .tick => let r := single tick st; (r.1, .ofExcept r.2)
  | .stop =>
    match c.stop with
    | .ok c => ((c, world), .done)
    | .error e => (st, .error e)
  | .interrupt => ((c.interrupt, world), .done)
  | .register x =>
    match c.register x with
    | .ok c => ((c, world), .done)
    | .error e => (st, .error e)
  | .unregister x => let r := c.unregister x; ((r.1, world), .flag r.2)
  | .subscribe wanted =>
    let r := c.feed.subscribe wanted
    (({ c with feed := r.1 }, world), .number r.2)
  | .drain i =>
    let r := c.feed.drain i
    (({ c with feed := r.1 }, world), .notices r.2)
  | .letGo i => (({ c with feed := c.feed.drop i }, world), .done)
  | .watchers => (st, .number c.feed.size)
  | .time => (st, .number c.time)
  | .ticking => (st, .flag c.ticking)
  | .info => (st, .info c.tickLength c.unit)
  | _ => (st, .unavailable)

/-- A call from inside a tick. It can start no other tick. -/
def serve : Service Unit := fun c call =>
  let r := answer (σ := Unit) Clock.reentrant call (c, ())
  (r.1.1, r.2)

/-- A tick with real callbacks. -/
def dispatch (behave : Behaviour σ) : Ticker Unit σ := Clock.tick serve behave .caller

/-- A call from outside. -/
def perform (behave : Behaviour σ) (call : Call) (st : SimulatedClock × σ) :
    (SimulatedClock × σ) × Answer :=
  answer (dispatch behave) call st

end SimulatedClock

end Metronome
