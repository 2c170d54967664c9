-- The life of a real-time clock as stages, and the triggers that move it
-- from one stage to the next.

namespace Metronome

/-- How a clock paces its ticks. -/
inductive Mode where
  | realTime
  | simulated
  | stopped
  deriving DecidableEq, Repr

namespace Mode

def all : List Mode := [.realTime, .simulated, .stopped]

def name : Mode → String
  | .realTime => "RealTime"
  | .simulated => "Simulated"
  | .stopped => "Stopped"

def ofName? (s : String) : Option Mode := all.find? (fun m => m.name == s)

theorem ofName?_name (m : Mode) : ofName? m.name = some m := by
  cases m <;> decide

end Mode

inductive Stage where
  | initRealTime
  | initSimulated
  | realTimeRunning
  | simulatedRunning
  | stopped
  deriving DecidableEq, Repr

inductive Trigger where
  | start
  | stop
  | requestSimulated
  | doSimulated
  | requestRealTime
  | doRealTime
  deriving DecidableEq, Repr

namespace Trigger

def all : List Trigger :=
  [.start, .stop, .requestSimulated, .doSimulated, .requestRealTime, .doRealTime]

def name : Trigger → String
  | .start => "Start"
  | .stop => "Stop"
  | .requestSimulated => "RequestSimulated"
  | .doSimulated => "DoSimulated"
  | .requestRealTime => "RequestRealTime"
  | .doRealTime => "DoRealTime"

def ofName? (s : String) : Option Trigger := all.find? (fun t => t.name == s)

end Trigger

/-- A trigger that a stage does not accept. -/
structure IllegalTransition where
  stage : Stage
  trigger : Trigger
  deriving DecidableEq, Repr

namespace Stage

def all : List Stage :=
  [.initRealTime, .initSimulated, .realTimeRunning, .simulatedRunning, .stopped]

def name : Stage → String
  | .initRealTime => "InitRealTime"
  | .initSimulated => "InitSimulated"
  | .realTimeRunning => "RealtimeRunning"
  | .simulatedRunning => "SimulatedRunning"
  | .stopped => "Stopped"

def ofName? (s : String) : Option Stage := all.find? (fun st => st.name == s)

/-- The stage that a clock starts its life in. No clock is born stopped. -/
def initial? : Mode → Option Stage
  | .realTime => some .initRealTime
  | .simulated => some .initSimulated
  | .stopped => none

def mode : Stage → Mode
  | .initRealTime | .realTimeRunning => .realTime
  | .initSimulated | .simulatedRunning => .simulated
  | .stopped => .stopped

def isRunning : Stage → Bool
  | .realTimeRunning | .simulatedRunning => true
  | _ => false

def isInitial : Stage → Bool
  | .initRealTime | .initSimulated => true
  | _ => false

/-- A request never changes the pace of a running clock. Only `doSimulated`
and `doRealTime` do, and they come at the end of a tick. -/
def on (s : Stage) (t : Trigger) : Except IllegalTransition Stage :=
  match s, t with
  | .initRealTime, .requestSimulated => .ok .initSimulated
  | .initRealTime, .start => .ok .realTimeRunning
  | .initSimulated, .requestRealTime => .ok .initRealTime
  | .initSimulated, .start => .ok .simulatedRunning
  | .realTimeRunning, .requestSimulated => .ok .realTimeRunning
  | .realTimeRunning, .requestRealTime => .ok .realTimeRunning
  | .realTimeRunning, .doSimulated => .ok .simulatedRunning
  | .realTimeRunning, .stop => .ok .stopped
  | .simulatedRunning, .requestSimulated => .ok .simulatedRunning
  | .simulatedRunning, .requestRealTime => .ok .simulatedRunning
  | .simulatedRunning, .doRealTime => .ok .realTimeRunning
  | .simulatedRunning, .stop => .ok .stopped
  | .stopped, .stop => .ok .stopped
  | s, t => .error ⟨s, t⟩

end Stage

def IllegalTransition.message (i : IllegalTransition) : String :=
  "Trigger " ++ i.trigger.name ++ " is not allowed in state " ++ i.stage.name

end Metronome
