-- A command line from its words to the end of the program.
import Metronome.CommandLine.Request
import Metronome.SettingsFile
import Metronome.Trial

namespace Metronome.CommandLine

/-- How the program ends. -/
inductive Ending where
  /-- It shows a text. -/
  | told (text : String)
  | misused
  /-- Something went wrong, and the message says what. -/
  | failed (message : String)
  | crashed (f : Fault)
  /-- The counters are shown only if they are asked for. -/
  | reported (report : Report) (counters : List String)

def Ending.exitCode : Ending → Nat
  | .told _ => 0
  | .misused => 2
  | .failed _ => 1
  | .crashed _ => 101
  | .reported _ _ => 0

/-- The line that tells of a failure. -/
def errorLine (message : String) : String := "Error: " ++ message

def Ending.ofProblem : TrialProblem → Ending
  | .tickHasNoDuration => .failed "tick length does not fit a duration"
  | .clock e => .failed e.message
  | .fault f => .crashed f

/-- A trial that gives a report ends well. -/
def Ending.ofTrial (metrics : Bool) : Except TrialProblem Report → Ending
  | .error problem => .ofProblem problem
  | .ok report => .reported report (if metrics then report.counterLines else [])

/-! ## Settings -/

/-- What the command line says goes before what the file says. -/
def Pace.over (p : Pace) (s : Settings) : Settings :=
  { s with tickLength := p.tickLength.getD s.tickLength, unit := p.unit.getD s.unit }

/-- The settings that a run begins with. `content?` gives what a file holds. -/
def Common.settings (common : Common) (content? : String → Option Text.Bytes) :
    Except Ending Settings :=
  match common.config with
  | none => .ok {}
  | some path =>
    (Settings.load (content? path)).mapError fun _ => .failed ("failed to load " ++ path)

def Pace.work (p : Pace) : Duration := ⟨p.workMicros * 1000⟩

def RealTimeRun.over (r : RealTimeRun) (s : Settings) : Settings :=
  let s := r.pace.over s
  { s with
    startingMode := .realTime
    pauses := { s.pauses with logPath := r.pauseLog.orElse fun _ => s.pauses.logPath }
    scheduler :=
      { s.scheduler with
        core := r.pinnedCore.orElse fun _ => s.scheduler.core
        pinned := s.scheduler.pinned && !r.noPin } }

/-! ## Runs -/

def Command.perform (command : Command) (s : Settings) (durations : Nat → UInt64) :
    Except TrialProblem Report :=
  match command with
  | .simulated r => Trial.simulated (r.pace.over s) r.ticks durations
  | .realTime r =>
    Trial.realTime (r.over s)
      { switchAfter := r.switchAfter, simulatedTicks := r.simulatedTicks }
      (.ofParts r.seconds 0) r.pace.work durations fun _ => .silent

/-- The file that a run reads its settings from. -/
def settingsFile? (words : List String) : Option String :=
  match Request.ofWords words with
  | .run common _ => common.config
  | _ => none

/-- Runs what the words ask for. If nobody says how long the dispatches take, each of them takes a
nanosecond. -/
def run (words : List String) (content? : String → Option Text.Bytes)
    (durations : Nat → UInt64 := fun _ => 1) : Ending :=
  match Request.ofWords words with
  | .misuse => .misused
  | .tell text => .told text
  | .run common command =>
    match common.settings content? with
    | .error ending => ending
    | .ok s => .ofTrial common.metrics (command.perform s durations)

end Metronome.CommandLine
