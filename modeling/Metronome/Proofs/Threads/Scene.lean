-- A clock among threads. One thread starts it, a worker runs its scheduled
-- ticks, and anyone may stop it or ask it for another pace. A step is what a
-- thread does in one go: a section under a lock, a flag read or written, a
-- command or an outcome sent or received. The order of the steps is free.
import Metronome.Proofs.RealTime.Run
import Metronome.Worker

namespace Metronome

/-! ## What the threads are about to do -/

/-- A stop that someone called, or the end of the run, which does the same without the first
phase. -/
inductive Halt where
  /-- It has not looked at the stage yet. -/
  | entering
  | quieting
  | takingTask
  | raising (task : Nat)
  | waking
  | takingScheduler
  /-- It owns the scheduler thread, and shuts it down twice. -/
  | telling (s : Scheduler) (again : Bool)
  | unpinning (s : Scheduler) (again : Bool)
  | joining (s : Scheduler)
  | done
  | refused (e : ClockError)
  deriving DecidableEq, Repr

structure Stop where
  /-- It was called on the scheduler thread, which cannot wait for its own end. -/
  own : Bool
  /-- The stage in which it was called. -/
  since : Stage
  phase : Halt := .entering
  deriving DecidableEq, Repr

inductive Dispatch (σ : Type) where
  | knocking
  | calling (r : Round)
  /-- A callback that was called with this budget. -/
  | inside (r : Round) (x : Listener) (b : Budget) (p : Program σ)
  /-- The callback called a stop, and waits for it. -/
  | waiting (r : Round) (x : Listener) (b : Budget) (stop : Nat) (next : Answer → Program σ)
  | settling

/-- A run of the scheduled task. -/
inductive Duty (σ : Type) where
  | glancing
  | ticking (d : Dispatch σ)
  | checking
  | minding

/-- The thread that starts the clock. -/
inductive Main (σ : Type) where
  | outside
  | looking
  | choosing
  | scheduling
  -- a real-time leg
  | awaiting (task : Nat)
  | polling (task : Nat)
  | cancelling (task : Nat)
  | waking (task : Nat)
  | lost
  | clearing (e : Option ClockError)
  -- a simulated leg
  | free
  | wishing
  | ticking (d : Dispatch σ)
  -- between two legs, and after the last
  | applying
  | closing (e : Option ClockError)
  | leaving (stop : Nat) (e : Option ClockError)
  | finished (ending : RealTimeClock.Ending)

/-- Whoever starts a second scheduler thread loses sight of the first. -/
structure Scene (σ : Type) where
  clock : RealTimeClock
  world : σ
  told : Chronicle := []
  main : Main σ := .outside
  /-- How many scheduler threads were ever started. -/
  spawned : Nat := 0
  worker : Worker := {}
  duty : Duty σ := .glancing
  /-- The task that a stop would cancel. -/
  active : Option Nat := none
  /-- Every stop that was ever called, and the end of the run. -/
  stops : List Stop := []

/-- Whose turn it is. -/
inductive Act where
  /-- The thread that starts the clock. It waits for an outcome no longer than until `alarm`. -/
  | main (alarm : Bool)
  /-- The scheduler thread. A run begins when it is `due`. -/
  | worker (due : Bool)
  | stop (i : Nat)
  /-- Someone calls a stop. -/
  | issue
  /-- Someone makes another call. -/
  | call (c : Call)
  deriving DecidableEq, Repr

namespace Scene

variable {σ : Type}

/-- Before anything happened. -/
def opening (c : RealTimeClock) (world : σ) : Scene σ := { clock := c, world }

/-! ## Stops -/

def setStop (s : Scene σ) (i : Nat) (x : Stop) (phase : Halt) : Scene σ :=
  { s with stops := s.stops.set i { x with phase } }

def addStop (s : Scene σ) (own : Bool) (phase : Halt) : Scene σ :=
  { s with stops := s.stops ++ [{ own, since := s.clock.pacing.stage, phase }] }

/-- The next phase of a stop, if it need not wait. -/
def stopStep (s : Scene σ) (i : Nat) (x : Stop) : Option (Scene σ) :=
  match x.phase with
  | .entering =>
    match s.clock.retire with
    | .ok c => some ({ s with clock := c }.setStop i x .quieting)
    | .error e => some (s.setStop i x (.refused e))
  | .quieting => some ({ s with clock := s.clock.endTicking }.setStop i x .takingTask)
  | .takingTask =>
    match s.active with
    | some t => some ({ s with active := none }.setStop i x (.raising t))
    | none => some (s.setStop i x .takingScheduler)
  | .raising t =>
    let r := s.worker.raiseFlag t
    some ({ s with worker := r.1 }.setStop i x (if r.2 then .waking else .takingScheduler))
  | .waking => some ({ s with worker := s.worker.wake }.setStop i x .takingScheduler)
  | .takingScheduler =>
    match s.clock.pacing.scheduler with
    | some t =>
      let pacing := { s.clock.pacing with scheduler := none, cancelled := true }
      some ({ s with clock := { s.clock with pacing } }.setStop i x (.telling t false))
    | none => some (s.setStop i x .done)
  | .telling t again =>
    some ({ s with worker := (s.worker.send? .shutDown).getD s.worker }.setStop i x
      (.unpinning t again))
  | .unpinning t again =>
    some ({ s with clock := s.clock.unpin t }.setStop i x
      (if again then .done else .joining { t with pinned := false }))
  | .joining t =>
    if x.own ∨ s.worker.phase = .exited then some (s.setStop i x (.telling t true)) else none
  | .done => none
  | .refused _ => none

/-! ## Ticks -/

/-- The next step of a tick, if its thread need not wait for a stop. -/
def dispatchStep (behave : Behaviour σ) (thread : Thread) (s : Scene σ) :
    Dispatch σ → Option (Scene σ × (Dispatch σ ⊕ Except ClockError TickEnd))
  | .knocking =>
    let told := s.told ++ [Happening.asked s.clock.time]
    match s.clock.lend with
    | .error e => some ({ s with told }, .inr (.error e))
    | .ok lent =>
      let names := s.clock.roster.names
      some ({ s with clock := lent, told }, .inl (.calling ⟨.tick, s.clock.time, names, names⟩))
  | .calling r =>
    match r.rest, r.phase with
    | x :: rest, phase =>
      let b := s.clock.budget
      some (s, .inl (.inside { r with rest } x b (behave ⟨x, phase, b, thread⟩ s.world)))
    | [], .tick =>
      some ({ s with clock.budget := s.clock.budget.consumeAll },
        .inl (.calling { r with phase := .after, rest := r.names }))
    | [], .after => some (s, .inl .settling)
  | .inside r x b (.finish world verdict) =>
    let s := { s with world, told := s.told ++ [Happening.called x r.phase b verdict] }
    match verdict.error? r.start with
    | none => some (s, .inl (.calling r))
    | some e => some ({ s with clock.dispatching := false }, .inr (.error e))
  | .inside r x b (.ask call next) =>
    if call = .stop then
      some (s.addStop (thread = .scheduler) .entering, .inl (.waiting r x b s.stops.length next))
    else
      let reply := Program.reply RealTimeClock.serve r.phase s.clock call
      some ({ s with clock := reply.1 }, .inl (.inside r x b (next reply.2)))
  | .waiting r x b i next =>
    match s.stops[i]? with
    | some ⟨_, _, .done⟩ => some (s, .inl (.inside r x b (next .done)))
    | some ⟨_, _, .refused e⟩ => some (s, .inl (.inside r x b (next (.error e))))
    | _ => none
  | .settling => some ({ s with clock := s.clock.advance.1 }, .inr (.ok s.clock.advance.2))

/-! ## The scheduler thread -/

/-- A run of a task is over, and its report is heeded. -/
def heed (s : Scene σ) (task : Nat) (r : Worker.Report) : Scene σ :=
  { s with
    duty := .glancing
    worker := (s.worker.changeTask task fun t => { t with runs := t.runs + 1 }).heed task r }

/-- The next step of a run of a task. -/
def dutyStep (behave : Behaviour σ) (task : Nat) (s : Scene σ) : Option (Scene σ) :=
  match s.duty with
  | .glancing =>
    if s.clock.ticking then some { s with clock := s.clock.stamp, duty := .ticking .knocking }
    else some (s.heed task .complete)
  | .ticking d =>
    match s.dispatchStep behave .scheduler d with
    | none => none
    | some (s, .inl d) => some { s with duty := .ticking d }
    | some (s, .inr (.error e)) => some (s.heed task (.failed e))
    | some (s, .inr (.ok .interrupted)) => some (s.heed task .complete)
    | some (s, .inr (.ok .completed)) => some { s with duty := .checking }
  | .checking =>
    if s.clock.ticking then some { s with duty := .minding } else some (s.heed task .complete)
  | .minding =>
    if s.clock.pacing.pending = .toSimulated then some (s.heed task .cancel)
    else some (s.heed task .goOn)

def workerStep (behave : Behaviour σ) (due : Bool) (s : Scene σ) : Option (Scene σ) :=
  match s.worker.phase with
  | .running task => s.dutyStep behave task
  | _ => (s.worker.step? due).map fun worker => { s with worker }

/-! ## The thread that starts the clock -/

/-- The clock behind a section that may have started a scheduler thread. -/
def filled (s : Scene σ) (c : RealTimeClock) : Scene σ :=
  if s.clock.pacing.scheduler.isNone ∧ c.pacing.scheduler.isSome then
    { s with clock := c, spawned := s.spawned + 1, worker := {} }
  else { s with clock := c }

/-- The section that begins a real-time leg. What the task does is left to the duty. -/
def scheduleStep (s : Scene σ) : Scene σ :=
  if s.clock.pacing.stage = .realTimeRunning then
    match s.clock.schedule with
    | .error f => { s with main := .finished (.broken f) }
    | .ok c =>
      let s := s.filled c
      match s.worker.schedule? s.clock.pacing.period fun _ => .goOn with
      | none => { s with main := .closing (some .schedulerUnavailable) }
      | some worker =>
        { s with
          worker
          active := some s.worker.tasks.length
          main := .awaiting s.worker.tasks.length }
  else { s with main := .applying }

/-- What the thread that awaits a task hears of it. -/
def awaitStep (alarm : Bool) (task : Nat) (s : Scene σ) : Option (Scene σ) :=
  match s.worker.receive task with
  | (worker, .outcome (.failed e)) => some { s with worker, main := .clearing (some e) }
  | (worker, .outcome _) => some { s with worker, main := .clearing none }
  | (_, .disconnected) => some { s with main := .lost }
  | (_, .nothingYet) => if alarm then some { s with main := .polling task } else none

def mainStep (behave : Behaviour σ) (alarm : Bool) (s : Scene σ) : Option (Scene σ) :=
  match s.main with
  | .outside =>
    match s.clock.launch with
    | .error e => some { s with main := .finished e }
    | .ok c => some { s.filled c with main := .looking }
  | .looking => some { s with main := if s.clock.ticking then .choosing else .closing none }
  | .choosing =>
    match s.clock.pacing.stage with
    | .realTimeRunning => some { s with main := .scheduling }
    | .simulatedRunning => some { s with main := .free }
    | _ => some { s with main := .closing none }
  | .scheduling => some s.scheduleStep
  | .awaiting task => s.awaitStep alarm task
  | .polling task =>
    some { s with main := if s.clock.ticking then .awaiting task else .cancelling task }
  | .cancelling task =>
    let r := s.worker.raiseFlag task
    some { s with worker := r.1, main := if r.2 then .waking task else .awaiting task }
  | .waking task => some { s with worker := s.worker.wake, main := .awaiting task }
  | .lost =>
    some { s with main := .clearing (if s.clock.ticking then some .schedulerUnavailable else none) }
  | .clearing none => some { s with active := none, main := .applying }
  | .clearing (some e) => some { s with active := none, main := .closing (some e) }
  | .free => some { s with main := if s.clock.ticking then .wishing else .applying }
  | .wishing =>
    if s.clock.pacing.pending = .toRealTime then some { s with main := .applying }
    else some { s with main := .ticking .knocking }
  | .ticking d =>
    match s.dispatchStep behave .caller d with
    | none => none
    | some (s, .inl d) => some { s with main := .ticking d }
    | some (s, .inr (.error e)) => some { s with main := .closing (some e) }
    | some (s, .inr (.ok .interrupted)) => some { s with main := .applying }
    | some (s, .inr (.ok .completed)) => some { s with main := .free }
  | .applying =>
    match s.clock.applyPending with
    | .ok c => some { s with clock := c, main := .looking }
    | .error e => some { s with main := .closing (some e) }
  | .closing e =>
    some { { s with clock := s.clock.close }.addStop false .quieting with
      main := .leaving s.stops.length e }
  | .leaving i e =>
    if (s.stops[i]?).map (·.phase) = some .done then
      some { s with clock := s.clock.publish .stopped, main := .finished (.of e) }
    else none
  | .finished _ => none

/-! ## Runs -/

/-- One step, unless whoever is to take it has to wait or there is no such step. Nobody starts the
clock again, and nobody stops it in one go. -/
def step (behave : Behaviour σ) (s : Scene σ) : Act → Option (Scene σ)
  | .main alarm => s.mainStep behave alarm
  | .worker due => s.workerStep behave due
  | .stop i => (s.stops[i]?).bind fun x => s.stopStep i x
  | .issue => some (s.addStop false .entering)
  | .call c =>
    if c.isPublic ∧ c ≠ .stop ∧ c ≠ .start then
      some { s with clock := (RealTimeClock.serve s.clock c).1 }
    else none

/-- Steps in this order. -/
def play (behave : Behaviour σ) (s : Scene σ) (acts : List Act) : Option (Scene σ) :=
  acts.foldlM (fun s act => s.step behave act) s

/-- What no step breaks, no order of steps breaks. -/
theorem play_keeps {behave : Behaviour σ} {I : Scene σ → Prop}
    (hstep : ∀ (s : Scene σ) (a : Act) (t : Scene σ), I s → s.step behave a = some t → I t)
    {acts : List Act} {s t : Scene σ} (h : I s) (hs : s.play behave acts = some t) : I t := by
  unfold play at hs
  induction acts generalizing s with
  | nil =>
    cases hs
    exact h
  | cons a acts ih =>
    rw [List.foldlM_cons] at hs
    obtain ⟨u, hu, hs⟩ := Option.bind_eq_some_iff.mp hs
    exact ih (hstep s a u h hu) hs

end Scene

end Metronome
