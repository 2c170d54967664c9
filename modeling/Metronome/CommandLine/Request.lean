-- What a command line asks for: a run in simulated time, a run in real
-- time, or a text to read.
import Metronome.CommandLine.Switch
import Metronome.Settings
import Metronome.Text.Whole

namespace Metronome.CommandLine

/-! ## Options -/

/-- Options of every command. -/
structure Common where
  logLevel : String := "info"
  logFormat : String := "default"
  /-- The settings file. -/
  config : Option String := none
  /-- The counters are to be printed after the report. -/
  metrics : Bool := false
  deriving DecidableEq, Repr

/-- Options of every run. -/
structure Pace where
  tickLength : Option Int := none
  unit : Option TimeUnit := none
  /-- How long each tick works, in microseconds. -/
  workMicros : Nat := 0
  deriving DecidableEq, Repr

structure SimulatedRun where
  pace : Pace := {}
  ticks : Nat := 1000
  deriving DecidableEq, Repr

structure RealTimeRun where
  pace : Pace := {}
  seconds : Nat := 5
  /-- After so many ticks the run goes over to simulated time. -/
  switchAfter : Option Nat := none
  /-- So many ticks later it comes back. -/
  simulatedTicks : Nat := 100
  pauseLog : Option String := none
  pinnedCore : Option Nat := none
  noPin : Bool := false
  deriving DecidableEq, Repr

inductive Command where
  | simulated (run : SimulatedRun)
  | realTime (run : RealTimeRun)
  deriving DecidableEq, Repr

/-! ## Switches -/

/-- The four units that have a short name here. -/
def unitOfSymbol? (s : String) : Option TimeUnit :=
  [TimeUnit.nanoseconds, .microseconds, .milliseconds, .seconds].find? fun u => u.symbol == s

/-- A path is not empty. -/
def path? (s : String) : Option String := if s = "" then none else some s

def helpSwitch {α : Type} : Switch α :=
  { name := "help", letter := some 'h', effect := .stop .help }

def versionSwitch {α : Type} : Switch α :=
  { name := "version", letter := some 'V', effect := .stop .version }

def Common.switches : List (Switch Common) :=
  [{ name := "log-level", effect := .value fun s c => some { c with logLevel := s } },
   { name := "log-format", effect := .value fun s c => some { c with logFormat := s } },
   { name := "config", letter := some 'c'
     effect := .value fun s c => (path? s).map fun p => { c with config := some p } },
   { name := "metrics", effect := .flag fun c => { c with metrics := true } }]

def Pace.switches : List (Switch Pace) :=
  [{ name := "tick-length", letter := some 't'
     effect := .value fun s p => (Text.signed? s).map fun n => { p with tickLength := some n } },
   { name := "unit", letter := some 'u'
     effect := .value fun s p => (unitOfSymbol? s).map fun u => { p with unit := some u } },
   { name := "work-us", letter := some 'w'
     effect := .value fun s p => (Text.unsigned? s).map fun n => { p with workMicros := n } }]

def SimulatedRun.switches : List (Switch SimulatedRun) :=
  Pace.switches.map (Switch.onPart SimulatedRun.pace fun pace r => { r with pace }) ++
  [{ name := "ticks", letter := some 'n'
     effect := .value fun s r => (Text.unsigned? s).map fun n => { r with ticks := n } }]

def RealTimeRun.switches : List (Switch RealTimeRun) :=
  Pace.switches.map (Switch.onPart RealTimeRun.pace fun pace r => { r with pace }) ++
  [{ name := "duration", letter := some 'd'
     effect := .value fun s r => (Text.unsigned? s).map fun n => { r with seconds := n } },
   { name := "switch-after"
     effect := .value fun s r =>
       (Text.unsigned? s).map fun n => { r with switchAfter := some n } },
   { name := "simulated-ticks"
     effect := .value fun s r => (Text.unsigned? s).map fun n => { r with simulatedTicks := n } },
   { name := "pause-log"
     effect := .value fun s r => (path? s).map fun p => { r with pauseLog := some p } },
   { name := "pinned-core"
     effect := .value fun s r =>
       (Text.unsigned? s).map fun n => { r with pinnedCore := some n } },
   { name := "no-pin", effect := .flag fun r => { r with noPin := true } }]

/-! ## Texts -/

def programName : String := "clock-monitor"

def versionText : String := programName ++ " 0.1.0"

def about : String :=
  "Drive a simulation clock with synthetic listeners and report tick timing"

def simulatedAbout : String := "Tick as fast as possible for a fixed number of ticks"

def realTimeAbout : String :=
  "Tick against the wall clock, optionally detouring through simulated time"

def helpAbout : String := "Print this message or the help of the given subcommand(s)"

/-! ## Requests -/

inductive Request where
  | run (common : Common) (command : Command)
  /-- A text is to be shown, and nothing else. -/
  | tell (text : String)
  | misuse
  deriving DecidableEq, Repr

/-- What a stop asks for where the help says `help`. -/
def Stop.request (help : String) : Stop → Request
  | .misuse => .misuse
  | .help => .tell help
  | .version => .tell versionText

/-- Help on a command, or on the whole. -/
def helpRequest : List String → Request
  | [] => .tell about
  | ["simulated"] => .tell simulatedAbout
  | ["realtime"] => .tell realTimeAbout
  | ["help"] => .tell helpAbout
  | _ => .misuse

/-- The words behind the name of a command. Options of every command may stand here too. -/
def readCommand {α : Type} (help : String) (switches : List (Switch α)) (command : α → Command)
    (common : Common) (start : α) (words : List String) : Request :=
  let all : List (Switch (Common × α)) :=
    Common.switches.map (Switch.onPart Prod.fst fun c s => (c, s.2)) ++
      switches.map (Switch.onPart Prod.snd fun a s => (s.1, a)) ++ [helpSwitch]
  match readWords all .nothing { state := (common, start) } words with
  | .error stop => stop.request help
  | .ok (p, []) => .run p.state.1 (command p.state.2)
  | .ok (_, _ :: _) => .misuse

/-- What the words ask for. A command must be named. -/
def Request.ofWords (words : List String) : Request :=
  match readWords (Common.switches ++ [helpSwitch, versionSwitch]) .nothing { state := {} }
      words with
  | .error stop => stop.request about
  | .ok (p, "simulated" :: rest) =>
    readCommand simulatedAbout SimulatedRun.switches .simulated p.state {} rest
  | .ok (p, "realtime" :: rest) =>
    readCommand realTimeAbout RealTimeRun.switches .realTime p.state {} rest
  | .ok (_, "help" :: rest) => helpRequest rest
  | .ok _ => .misuse

end Metronome.CommandLine
