-- A simulated clock at work, step by step. Whoever calls it waits on a stack:
-- a start for its ticks, a tick for its callbacks, and a callback for the
-- answers to the calls that it makes of the same clock. Nothing is taken for
-- granted about calls from inside a tick: they try whatever they ask for.
import Metronome.Clock.Simulated
import Metronome.Proofs.Simulated.Brackets
import Metronome.Proofs.Watchers
import Mathlib.Logic.Relation

namespace Metronome

namespace SimulatedClock

variable {σ : Type}

/-! ## Who waits, and what goes on -/

/-- A call that waits. -/
inductive Frame (σ : Type) where
  /-- A start, by its number, waits for a tick. -/
  | run (start : Nat)
  /-- A call for exactly one tick waits for it. -/
  | single
  /-- A callback of a tick waits for the answer to its call. -/
  | callback (r : Round) (next : Answer → Program σ)

namespace Frame

/-- A start or a tick is in progress. -/
def ticks : Frame σ → Bool
  | .callback _ _ => false
  | _ => true

/-- The number of a start. -/
def start? : Frame σ → Option Nat
  | .run k => some k
  | _ => none

end Frame

/-- What goes on at the top of the stack. -/
inductive Doing (σ : Type) where
  /-- Nobody waits for anything. -/
  | idle
  | asking (call : Call)
  | answering (a : Answer)
  /-- A run looks whether it is to go on. -/
  | looping
  /-- A tick is about to begin. -/
  | knocking
  /-- A tick is between two callbacks. -/
  | visiting (r : Round)
  /-- A callback runs. -/
  | inside (r : Round) (p : Program σ)
  | ticked (r : Except ClockError TickEnd)

/-- How many callbacks run at the top of the stack. -/
def Doing.callbacks : Doing σ → Nat
  | .inside _ _ => 1
  | _ => 0

/-- A simulated clock and all that is going on with it. The books that are kept beside it change
nothing: the answers given, the ticks completed, the starts made, those that found the clock
ticking, what was published, and what the first watcher took of it. -/
structure Machine (σ : Type) where
  clock : SimulatedClock
  world : σ
  stack : List (Frame σ) := []
  doing : Doing σ := .idle
  answers : List Answer := []
  ticks : Nat := 0
  starts : Nat := 0
  refused : List Nat := []
  signs : List Sign := []
  taken : List Notice := []

namespace Machine

/-- A new clock that has one watcher. -/
def opening (tickLength : Int) (unit : TimeUnit) (world : σ) : Machine σ :=
  { clock := { make tickLength unit with feed := ((⟨[]⟩ : Feed).subscribe none).1 }, world }

/-- How many callbacks have begun and not ended. -/
def callbacks (s : Machine σ) : Nat :=
  s.stack.countP (fun f => !f.ticks) + s.doing.callbacks

/-! ## Steps -/

/-- Someone calls the clock from outside. -/
def call (s : Machine σ) (call : Call) : Machine σ := { s with doing := .asking call }

def publish (s : Machine σ) (start : Nat) (e : Event) : Machine σ :=
  { s with
    clock := s.clock.publish e
    signs := s.signs ++ [⟨start, ⟨e, s.clock.time⟩⟩] }

def answer (s : Machine σ) (a : Answer) : Machine σ := { s with doing := .answering a }

/-- A start that does not find the clock ticking begins a run. -/
def askStart (s : Machine σ) : Machine σ :=
  let counted := { s with starts := s.starts + 1 }
  if s.clock.ticking then
    { counted with refused := s.refused ++ [s.starts] }.answer (.error .alreadyRunning)
  else
    { counted with
      clock := s.clock.beginTicking
      stack := .run s.starts :: s.stack
      doing := .looping }.publish s.starts .started

def askTick (s : Machine σ) : Machine σ :=
  if s.clock.ticking then s.answer (.error .alreadyRunning)
  else { s with clock := s.clock.beginTicking, stack := .single :: s.stack, doing := .knocking }

/-- A call that waits for nothing. -/
def askPlain (s : Machine σ) (call : Call) : Machine σ :=
  let r := serve s.clock call
  { s with clock := r.1, taken := Feed.keep 0 call r.2 s.taken }.answer r.2

def ask (s : Machine σ) : Call → Machine σ
  | .start => s.askStart
  | .tick => s.askTick
  | call => s.askPlain call

/-- The answer goes to whoever waits for it. -/
def reply (s : Machine σ) (a : Answer) : Option (Machine σ) :=
  match s.stack with
  | [] => some { s with answers := s.answers ++ [a], doing := .idle }
  | .callback r next :: below => some { s with stack := below, doing := .inside r (next a) }
  | _ => none

/-- A run is over. -/
def conclude (s : Machine σ) (start : Nat) (below : List (Frame σ))
    (result : Except ClockError Unit) : Machine σ :=
  ({ s with stack := below }.publish start .stopped).answer (.ofExcept result)

def loop (s : Machine σ) : Option (Machine σ) :=
  match s.stack with
  | .run k :: below =>
    if s.clock.ticking then some { s with doing := .knocking }
    else some (s.conclude k below (.ok ()))
  | _ => none

/-- A tick begins if the budget is free and the time has room for it. -/
def knock (s : Machine σ) : Machine σ :=
  match s.clock.lend with
  | .error e => { s with doing := .ticked (.error e) }
  | .ok lent =>
    let names := s.clock.roster.names
    { s with clock := lent, doing := .visiting ⟨.tick, s.clock.time, names, names⟩ }

/-- The next callback begins, or the next phase, or the time moves on. -/
def visit (behave : Behaviour σ) (s : Machine σ) (r : Round) : Machine σ :=
  match r.rest, r.phase with
  | x :: rest, phase =>
    let p := behave ⟨x, phase, s.clock.budget, .caller⟩ s.world
    { s with doing := .inside { r with rest } p }
  | [], .tick =>
    { s with
      clock := { s.clock with budget := s.clock.budget.consumeAll }
      doing := .visiting { r with phase := .after, rest := r.names } }
  | [], .after =>
    { s with
      clock := s.clock.advance.1
      ticks := s.ticks + 1
      doing := .ticked (.ok s.clock.advance.2) }

/-- A callback ends, and may end its tick, or it asks the budget or the clock. -/
def goOn (s : Machine σ) (r : Round) : Program σ → Machine σ
  | .finish world verdict =>
    match verdict.error? r.start with
    | none => { s with world, doing := .visiting r }
    | some e =>
      { s with
        clock := { s.clock with dispatching := false }
        world
        doing := .ticked (.error e) }
  | .ask call next =>
    match Program.onBudget r.phase s.clock call with
    | some (c, a) => { s with clock := c, doing := .inside r (next a) }
    | none => { s with stack := .callback r next :: s.stack, doing := .asking call }

/-- A tick that is over goes to whoever asked for it. -/
def settle (s : Machine σ) (result : Except ClockError TickEnd) : Option (Machine σ) :=
  match s.stack with
  | .run k :: below =>
    match result with
    | .ok .completed => some { s with doing := .looping }
    | .ok .interrupted => some (s.conclude k below (.ok ()))
    | .error e => some ({ s with clock := s.clock.endTicking }.conclude k below (.error e))
  | .single :: below =>
    some ({ s with clock := s.clock.endTicking, stack := below }.answer
      (.ofExcept (result.map fun _ => ())))
  | _ => none

/-- The next step, if anything goes on. -/
def step (behave : Behaviour σ) (s : Machine σ) : Option (Machine σ) :=
  match s.doing with
  | .idle => none
  | .asking call => some (s.ask call)
  | .answering a => s.reply a
  | .looping => s.loop
  | .knocking => some s.knock
  | .visiting r => some (s.visit behave r)
  | .inside r p => some (s.goOn r p)
  | .ticked result => s.settle result

/-! ## Runs -/

/-- So many steps lead from the one to the other. -/
abbrev Leads (behave : Behaviour σ) : Machine σ → Machine σ → Prop :=
  Relation.ReflTransGen fun s t => step behave s = some t

/-- Every moment of a clock that is called from outside, one call after another. -/
inductive Reached (behave : Behaviour σ) (start : Machine σ) : Machine σ → Prop
  | opening : Reached behave start start
  | called {s : Machine σ} {call : Call} :
      Reached behave start s → s.doing = .idle → call ≠ .letGo 0 →
      Reached behave start (s.call call)
  | stepped {s t : Machine σ} :
      Reached behave start s → step behave s = some t → Reached behave start t

end Machine

end SimulatedClock

end Metronome
