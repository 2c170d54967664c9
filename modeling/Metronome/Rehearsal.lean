-- A rehearsal: a clock of either kind with scripted listeners, called step
-- by step from outside.
import Metronome.Background
import Metronome.Clock.RealTime
import Metronome.Clock.Simulated
import Metronome.Script

namespace Metronome

/-- A run of a simulated clock has one leg only. -/
abbrev SimulatedRun := Background Unit (Except ClockError Unit)

abbrev RealTimeRun := Background RealTimeClock.Leg RealTimeClock.Ending

inductive Rehearsal where
  | simulated (clock : SimulatedClock) (world : Script.World) (run : SimulatedRun)
  | realTime (clock : RealTimeClock) (world : Script.World) (run : RealTimeRun)

namespace Rehearsal

/-! ## Views -/

def time : Rehearsal → Int
  | .simulated c _ _ => c.time
  | .realTime c _ _ => c.time

def tickLength : Rehearsal → Int
  | .simulated c _ _ => c.tickLength
  | .realTime c _ _ => c.tickLength

def ticking : Rehearsal → Bool
  | .simulated c _ _ => c.ticking
  | .realTime c _ _ => c.ticking

/-- Only a real-time clock has a stage. -/
def stage? : Rehearsal → Option Stage
  | .simulated _ _ _ => none
  | .realTime c _ _ => some c.pacing.stage

def world : Rehearsal → Script.World
  | .simulated _ w _ => w
  | .realTime _ w _ => w

def withWorld (r : Rehearsal) (w : Script.World) : Rehearsal :=
  match r with
  | .simulated c _ run => .simulated c w run
  | .realTime c _ run => .realTime c w run

/-! ## Calls -/

def perform (r : Rehearsal) (call : Call) : Rehearsal × Answer :=
  match r with
  | .simulated c w run =>
    let p := SimulatedClock.perform Script.behave call (c, w)
    (.simulated p.1.1 p.1.2 run, p.2)
  | .realTime c w run =>
    let p := RealTimeClock.perform Script.behave call (c, w)
    (.realTime p.1.1 p.1.2 run, p.2)

/-! ## Runs in the background -/

/-- One tick of a run. -/
def simulatedStep (_ : Unit) (st : SimulatedClock × Script.World) :
    (SimulatedClock × Script.World) × (Unit ⊕ Except ClockError Unit) :=
  match SimulatedClock.run (SimulatedClock.dispatch Script.behave) 1 st with
  | (st, none) => (st, .inl ())
  | (st, some result) => (st, .inr result)

def concludeRealTime (ending : RealTimeClock.Ending) (st : RealTimeClock × Script.World) :
    RealTimeClock × Script.World :=
  match ending with
  | .broken _ => st
  | _ => (st.1.conclude, st.2)

/-- Begins a run in the background. -/
def launch : Rehearsal → Rehearsal
  | .simulated c w _ =>
    match c.launch with
    | .ok c => .simulated c w (.running ())
    | .error e => .simulated c w (.over (.error e))
  | .realTime c w _ =>
    match c.launch with
    | .ok c => .realTime c w (.running .choosing)
    | .error e => .realTime c w (.over e)

/-- Lets the run go on until the clock is as wished: its time and its stage are shown. Nobody
looks between two legs of a run. -/
def goOn (r : Rehearsal) (done : Int → Option Stage → Bool) : Rehearsal :=
  match r with
  | .simulated c w run =>
    let p := run.advance simulatedStep (fun _ st => (st.1.conclude, st.2))
      (fun _ st => done st.1.time none) (c.ticksLeft + 1) (c, w)
    .simulated p.1.1 p.1.2 p.2
  | .realTime c w run =>
    let p := run.advance (RealTimeClock.step (RealTimeClock.dispatch Script.behave))
      concludeRealTime
      (fun leg st => decide (leg ≠ .choosing) && done st.1.time (some st.1.pacing.stage))
      c.enoughSteps (c, w)
    .realTime p.1.1 p.1.2 p.2

/-- Lets the run go on until so many ticks are complete. -/
def awaitTicks (r : Rehearsal) (n : Nat) : Rehearsal :=
  r.goOn fun time _ => decide (n * r.tickLength ≤ time)

/-- Lets the run go on until the clock has that mode. -/
def awaitMode (r : Rehearsal) (m : Mode) : Rehearsal :=
  r.goOn fun _ stage => decide (stage.map Stage.mode = some m)

/-- Lets the run come to its end, and gives its result. -/
def join (r : Rehearsal) : Rehearsal × Answer :=
  match r.goOn fun _ _ => false with
  | .simulated c w (.over result) => (.simulated c w (.over result), .ofExcept result)
  | .realTime c w (.over ending) => (.realTime c w (.over ending), ending.answer)
  | r => (r, .unavailable)

end Rehearsal

end Metronome
