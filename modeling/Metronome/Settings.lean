-- The settings of a clock, and the checks that they must pass before a
-- clock is built from them.
import Metronome.Error
import Metronome.Pinning

namespace Metronome

/-! ## Pause settings -/

structure PauseSettings where
  /-- The log that reports pauses, if there is one. -/
  logPath : Option String := none
  horizonMillis : Nat := 10000
  pollMillis : Nat := 100
  readFromStart : Bool := false
  deriving DecidableEq, Repr

namespace PauseSettings

def horizon (s : PauseSettings) : Duration := .ofMillis s.horizonMillis

def poll (s : PauseSettings) : Duration := .ofMillis s.pollMillis

/-- The first problem, if there is one. -/
def check (s : PauseSettings) : Except SettingsProblem Unit :=
  if s.horizonMillis = 0 then .error .noHorizon
  else if s.pollMillis = 0 then .error .noPollInterval
  else .ok ()

end PauseSettings

/-! ## Scheduler settings -/

structure SchedulerSettings where
  /-- The scheduler thread is to be pinned. -/
  pinned : Bool := true
  /-- The core to pin it to, or the last one. -/
  core : Option Nat := none
  awaitPollMillis : Nat := 10
  /-- How many stamps are kept. -/
  maxStamps : Nat := 100000
  threadName : String := "tick-scheduler"
  deriving DecidableEq, Repr

namespace SchedulerSettings

def awaitPoll (s : SchedulerSettings) : Duration := .ofMillis s.awaitPollMillis

/-- The core that the scheduler thread is pinned to, if it is to be pinned. -/
def targetCore? (s : SchedulerSettings) : Option Core :=
  if s.pinned then
    some (match s.core with
      | some n => .number n
      | none => .last)
  else none

def check (s : SchedulerSettings) : Except SettingsProblem Unit :=
  if s.awaitPollMillis = 0 then .error .noAwaitPoll
  else if s.maxStamps < 2 then .error .tooFewStamps
  else .ok ()

/-- A thread cannot bear a name with a NUL character in it. -/
def threadCanStart (s : SchedulerSettings) : Bool := !(s.threadName.toList.contains '\x00')

end SchedulerSettings

/-! ## Clock settings -/

structure Settings where
  tickLength : Int := 1000
  unit : TimeUnit := .standard
  startingMode : Mode := .realTime
  scheduler : SchedulerSettings := {}
  pauses : PauseSettings := {}
  deriving DecidableEq, Repr

namespace Settings

def tickDuration? (s : Settings) : Option Duration := s.unit.toDuration? s.tickLength

/-- The first problem, if there is one. The pause settings are not looked at. -/
def check (s : Settings) : Except ClockError Unit :=
  if s.tickLength ≤ 0 then .error (.invalidTickLength s.tickLength)
  else if s.startingMode = .stopped then .error (.unsupportedStartMode s.startingMode)
  else if s.unit.toNanos? s.tickLength = none then
    .error (.settings (.tickTooLong s.tickLength s.unit))
  else s.scheduler.check.mapError .settings

end Settings

end Metronome
