-- A monitor keeps the recent pauses. It follows a log that reports them, or
-- it is told of each.
import Metronome.Pause.Tailer
import Metronome.Pause.Window
import Metronome.Settings

namespace Metronome.Pause

/-- Why no log can be followed. -/
inductive MonitorError where
  | settings (problem : SettingsProblem)
  | noLog
  | logUnavailable (why : ReadProblem)
  deriving DecidableEq, Repr

def MonitorError.message : MonitorError → String
  | .settings problem => problem.message
  | .noLog => "No pause log configured"
  | .logUnavailable why => "Pause log could not be opened: " ++ why.name

structure Monitor where
  window : Window
  logPath : Option String := none
  /-- A monitor that follows a log is at work until it is shut down. -/
  tailing : Bool := false
  /-- The tailer, while it can read. -/
  tailer : Option Tailer := none
  deriving DecidableEq, Repr

namespace Monitor

def withoutLog (horizon : Duration) : Monitor := { window := { horizon := horizon.clamped } }

/-- Begins to follow the log that the settings name. `disk` says what stands at a path. -/
def start (settings : PauseSettings) (disk : String → Disk) : Except MonitorError Monitor := do
  settings.check.mapError .settings
  let path ← settings.logPath.elim (.error .noLog) .ok
  let tailer ← ((disk path).tailer? settings.readFromStart).elim
    (.error (.logUnavailable .notFound)) .ok
  .ok
    { window := { horizon := settings.horizon.clamped }
      logPath := path
      tailing := true
      tailer }

/-- Keeps a pause that was seen at `now`. -/
def record (now : Nat) (m : Monitor) (pause : Duration) : Monitor :=
  { m with window := m.window.record ⟨now, pause.clamped⟩ }

/-- Reads the log once. A read that fails tells of no pause, and a fault ends the reading. -/
def poll (now : Nat) (d : Disk) (m : Monitor) : Monitor :=
  match m.tailer with
  | none => m
  | some t =>
    match t.read d with
    | (_, .error (.fault _)) => { m with tailer := none }
    | (t, .error _) => { m with tailer := some t }
    | (t, .ok pauses) => pauses.foldl (record now) { m with tailer := some t }

def shutDown (m : Monitor) : Monitor := { m with tailing := false, tailer := none }

/-- How long the pauses of the last so many nanoseconds were together. -/
def totalWithin (m : Monitor) (now length : Nat) : Monitor × Except Fault Nat :=
  let window := m.window.prune now
  ({ m with window }, window.total now length)

/-- The monitor that the settings describe. Without one no pause is ever told of. -/
def ofSettings (settings : PauseSettings) (disk : String → Disk) : Option Monitor :=
  (start settings disk).toOption

/-- What a clock that may have a monitor is told. -/
def toldWithin (m : Option Monitor) (now length : Nat) : Except Fault Nat :=
  m.elim (.ok 0) fun m => (m.totalWithin now length).2

end Monitor

end Metronome.Pause
