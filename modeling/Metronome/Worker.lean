-- A thread that runs scheduled tasks, one at a time and each at a fixed
-- rate. Commands reach it in the order in which they were sent, and between
-- two runs it obeys them before it runs on.
import Metronome.Error
import Metronome.Pinning

namespace Metronome

namespace Worker

/-! ## Tasks -/

/-- What a run of a task reports. -/
inductive Report where
  | goOn
  | cancel
  | complete
  | failed (e : ClockError)
  | panicked (message : String)
  deriving DecidableEq, Repr

inductive Outcome where
  | completed
  | cancelled
  | failed (e : ClockError)
  deriving DecidableEq, Repr

/-- The outcome of a task whose run reports so, if the task is over. -/
def Report.outcome? : Report → Option Outcome
  | .goOn => none
  | .cancel => some .cancelled
  | .complete => some .completed
  | .failed e => some (.failed e)
  | .panicked message => some (.failed (.listenerPanicked message))

structure Task where
  period : Duration
  /-- What each run reports, from the number of runs before it. -/
  body : Nat → Report
  runs : Nat := 0
  cancelled : Bool := false
  /-- What was told of its end, and how much of that was received. -/
  outcomes : List Outcome := []
  received : Nat := 0

/-! ## Commands and phases -/

/-- A command names a task by its number. -/
inductive Command where
  | schedule (task : Nat)
  | wake
  | shutDown
  deriving DecidableEq, Repr

/-- What the worker is about to do. -/
inductive Phase where
  /-- It waits for a command. -/
  | idle
  /-- It looks whether the task was cancelled. -/
  | checking (task : Nat)
  /-- It waits for a command until the next run of the task is due. -/
  | resting (task : Nat)
  | running (task : Nat)
  | exited
  deriving DecidableEq, Repr

/-- The task that is under way. -/
def Phase.task? : Phase → Option Nat
  | .checking task => some task
  | .resting task => some task
  | .running task => some task
  | _ => none

end Worker

/-! ## The worker -/

structure Worker where
  /-- Every task that was ever scheduled, oldest first. -/
  tasks : List Worker.Task := []
  queue : List Worker.Command := []
  phase : Worker.Phase := .idle
  pinned : Bool := false
  pins : Pins := {}

namespace Worker

/-- A new worker first tries to pin itself, if it is to be pinned. -/
def spawn (core : Option Core) (pins : Pins) : Worker :=
  match core with
  | none => { pins }
  | some core =>
    let (pins, pinned) := pins.attempt core
    { pins, pinned }

def changeTask (w : Worker) (task : Nat) (f : Task → Task) : Worker :=
  { w with tasks := w.tasks.modify task f }

def isCancelled (w : Worker) (task : Nat) : Bool := (w.tasks[task]?).any (·.cancelled)

def runs (w : Worker) (task : Nat) : Nat := ((w.tasks[task]?).map (·.runs)).getD 0

/-- The worker may still run the task or tell of its end. -/
def holds (w : Worker) (task : Nat) : Bool :=
  w.phase ≠ .exited && (w.phase.task? == some task || w.queue.contains (.schedule task))

/-! ## What its clients do -/

/-- A worker that has exited receives no command. -/
def send? (w : Worker) (command : Command) : Option Worker :=
  if w.phase = .exited then none else some { w with queue := w.queue ++ [command] }

/-- Sends a new task, whose number is that of the tasks before it. -/
def schedule? (w : Worker) (period : Duration) (body : Nat → Report) : Option Worker :=
  send? { w with tasks := w.tasks ++ [{ period, body }] } (.schedule w.tasks.length)

/-- Raises the flag of a task. Only who raises it first has to wake the worker. -/
def raiseFlag (w : Worker) (task : Nat) : Worker × Bool :=
  (w.changeTask task fun t => { t with cancelled := true }, !w.isCancelled task)

def wake (w : Worker) : Worker := (w.send? .wake).getD w

/-- Cancels a task. A run that is in progress comes to its end first. -/
def cancel (w : Worker) (task : Nat) : Worker :=
  match w.raiseFlag task with
  | (w, true) => w.wake
  | (w, false) => w

/-- Releases the pin. Only the first time there is one to release. -/
def releasePin (w : Worker) : Worker :=
  if w.pinned then { w with pinned := false, pins := w.pins.release } else w

/-- Tells the worker to exit. -/
def tellToExit (w : Worker) : Worker := ((w.send? .shutDown).getD w).releasePin

/-- What a client hears that asks for the outcome of a task. -/
inductive News where
  | outcome (o : Outcome)
  /-- There may still be one. -/
  | nothingYet
  /-- There will be none. -/
  | disconnected
  deriving DecidableEq, Repr

def receive (w : Worker) (task : Nat) : Worker × News :=
  match w.tasks[task]? with
  | none => (w, .disconnected)
  | some t =>
    match t.outcomes[t.received]? with
    | some o => (w.changeTask task fun t => { t with received := t.received + 1 }, .outcome o)
    | none => (w, if w.holds task then .nothingYet else .disconnected)

/-! ## What the worker does -/

/-- Tells of the end of a task. -/
def report (w : Worker) (task : Nat) (o : Outcome) : Worker :=
  w.changeTask task fun t => { t with outcomes := t.outcomes ++ [o] }

def flag (w : Worker) (task : Nat) : Worker := (w.raiseFlag task).1

/-- Obeys a command while no task is under way. -/
def obeyIdle (w : Worker) : Command → Worker
  | .schedule task => { w with phase := .checking task }
  | .wake => w
  | .shutDown => { w with phase := .exited }

/-- Obeys a command between two runs of a task. Another task is rejected without a run. -/
def obeyBetween (w : Worker) (task : Nat) : Command → Worker
  | .schedule other =>
    { w.report other (.failed .alreadyRunning) with phase := .checking task }
  | .wake => { w with phase := .checking task }
  | .shutDown => { (w.flag task).report task .cancelled with phase := .exited }

/-- What follows a run of a task, from what the run reports. A task that is over leaves the
worker idle. -/
def heed (w : Worker) (task : Nat) (r : Report) : Worker :=
  match r.outcome? with
  | none => { w with phase := .checking task }
  | some o => { (if r = .cancel then w.flag task else w).report task o with phase := .idle }

/-- Runs a task once. -/
def run (w : Worker) (task : Nat) : Worker :=
  match w.tasks[task]? with
  | none => { w with phase := .idle }
  | some t => (w.changeTask task fun t => { t with runs := t.runs + 1 }).heed task (t.body t.runs)

/-- One step of the worker, unless it has to wait. A run begins when it is due and no command is
there. -/
def step? (w : Worker) (due : Bool) : Option Worker :=
  match w.phase, w.queue with
  | .exited, _ => none
  | .idle, [] => none
  | .idle, c :: queue => some (obeyIdle { w with queue } c)
  | .checking task, _ =>
    if w.isCancelled task then some { w.report task .cancelled with phase := .idle }
    else some { w with phase := .resting task }
  | .resting task, c :: queue => some (obeyBetween { w with queue } task c)
  | .resting task, [] => if due then some { w with phase := .running task } else none
  | .running task, _ => some (w.run task)

/-! ## Clients that wait -/

/-- A client waits for no run that is further away than this. -/
def patience : Duration := .ofMillis 10000

/-- The first run of a task is due at once, and every other one after a period. -/
def dueSoon (w : Worker) : Bool :=
  match w.phase with
  | .resting task =>
    (w.tasks[task]?).any fun t => t.runs == 0 || decide (t.period.nanos ≤ patience.nanos)
  | _ => false

/-- Lets the worker go on until `done` holds or it would have to wait too long, for at most so
many steps. -/
def goOn (done : Worker → Bool) : Nat → Worker → Worker
  | 0, w => w
  | n + 1, w =>
    if done w then w
    else
      match w.step? w.dueSoon with
      | some w => goOn done n w
      | none => w

/-- More steps than a client has patience for. -/
def longWait : Nat := 100000

/-- Waits until a task has run so often. -/
def awaitRuns (w : Worker) (task n : Nat) : Worker :=
  w.goOn (fun w => decide (n ≤ w.runs task)) longWait

/-- Waits for the outcome of a task. -/
def await (w : Worker) (task : Nat) : Worker × News :=
  (w.goOn (fun w => (w.receive task).2 ≠ .nothingYet) longWait).receive task

/-- Shuts the worker down and waits until it has exited. -/
def shutDown (w : Worker) : Worker := w.tellToExit.goOn (fun _ => false) longWait

end Worker

end Metronome
