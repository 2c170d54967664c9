-- What a clock refuses, and what goes wrong inside a tick.
import Metronome.Stage
import Metronome.TimeUnit

namespace Metronome

/-- Why settings cannot be used. -/
inductive SettingsProblem where
  | tickTooLong (length : Int) (unit : TimeUnit)
  | noPeriod (length : Int)
  | noAwaitPoll
  | tooFewStamps
  | noHorizon
  | noPollInterval
  deriving DecidableEq, Repr

def SettingsProblem.text : SettingsProblem → String
  | .tickTooLong length unit =>
    "tick length " ++ toString length ++ unit.symbol ++ " overflows nanosecond range"
  | .noPeriod length => "tick length " ++ toString length ++ " is not a valid period"
  | .noAwaitPoll => "await_poll_interval_ms must be positive"
  | .tooFewStamps => "max_recorded_timestamps must retain at least two timestamps"
  | .noHorizon => "horizon_ms must be positive"
  | .noPollInterval => "poll_interval_ms must be positive"

def SettingsProblem.message (p : SettingsProblem) : String := "Configuration error: " ++ p.text

inductive ClockError where
  | invalidTickLength (length : Int)
  | unsupportedStartMode (mode : Mode)
  | settings (problem : SettingsProblem)
  | notRunning
  | alreadyRunning
  | listenerAlreadyRegistered
  | illegalTransition (which : IllegalTransition)
  | singleStepUnsupported
  | reentrantTick
  | listener (time : Int) (source : String)
  | listenerPanicked (message : String)
  | schedulerUnavailable
  deriving DecidableEq, Repr

def ClockError.message : ClockError → String
  | .invalidTickLength length => "Tick length must be positive, got " ++ toString length
  | .unsupportedStartMode mode => mode.name ++ " is not a valid starting mode"
  | .settings problem => problem.message
  | .notRunning => "Clock is not running"
  | .alreadyRunning => "Clock is already running"
  | .listenerAlreadyRegistered => "Listener is already registered"
  | .illegalTransition which => which.message
  | .singleStepUnsupported => "Single-step ticking is not supported by a push-scheduled clock"
  | .reentrantTick => "Tick dispatch re-entered from inside a listener"
  | .listener time source => "Listener failed at time " ++ toString time ++ ": " ++ source
  | .listenerPanicked message => "Listener panicked: " ++ message
  | .schedulerUnavailable => "Tick scheduler terminated unexpectedly"

end Metronome
