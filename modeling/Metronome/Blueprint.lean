-- Building clocks. A blueprint collects settings and parts, and only a
-- blueprint whose settings pass the checks becomes a clock.
import Metronome.Clock.RealTime
import Metronome.Clock.Simulated

namespace Metronome

/-- A real-time clock with these settings. It checks them for itself, and it needs a stage to begin
in and a period. -/
def RealTimeClock.ofSettings (settings : Settings) (pins : Pins) (pauses : Pause.Source)
    (watch : Nat → Reading) : Except ClockError RealTimeClock := do
  settings.check
  let stage ← (Stage.initial? settings.startingMode).elim
    (.error (.unsupportedStartMode settings.startingMode)) .ok
  let period ← settings.tickDuration?.elim
    (.error (.settings (.noPeriod settings.tickLength))) .ok
  return .make settings stage period pins pauses watch

/-- What a clock is to be built from. -/
structure Blueprint where
  settings : Settings := {}
  /-- A pause source that was chosen, if any was. -/
  pauses : Option Pause.Source := none
  /-- The machine that pins the scheduler thread. -/
  pins : Pins := {}

namespace Blueprint

/-- A simulated clock needs no part beside its settings. -/
def buildSimulated (b : Blueprint) : Except ClockError SimulatedClock :=
  b.settings.check.map fun _ => .make b.settings.tickLength b.settings.unit

/-- Pauses come from the chosen source, else from the log that the settings name, which `openLog`
opens, else from nowhere. -/
def source (b : Blueprint) (openLog : PauseSettings → Pause.Source) : Pause.Source :=
  match b.pauses with
  | some source => source
  | none => if b.settings.pauses.logPath.isSome then openLog b.settings.pauses else .silent

/-- A real-time clock needs its settings checked before its pauses have a source. -/
def buildRealTime (b : Blueprint) (openLog : PauseSettings → Pause.Source)
    (watch : Nat → Reading) : Except ClockError RealTimeClock := do
  b.settings.check
  RealTimeClock.ofSettings b.settings b.pins (b.source openLog) watch

end Blueprint

end Metronome
