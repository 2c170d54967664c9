-- One tick: every listener is called with the budget, then every listener
-- is called again with the budget spent, and then the time moves on. The
-- first callback that fails ends the tick, and the time stays.
import Metronome.Clock.Program

namespace Metronome

inductive TickEnd where
  | completed
  /-- An interrupt came during the tick, and the clock ticks no more. -/
  | interrupted
  deriving DecidableEq, Repr

/-- A tick on a clock in a world. -/
abbrev Ticker (P σ : Type) := Clock P × σ → (Clock P × σ) × Except ClockError TickEnd

namespace Clock

variable {P σ : Type}

/-- A tick asked for from inside another one. -/
def reentrant : Ticker P σ := fun st => (st, .error .reentrantTick)

/-- The beginning of a tick: the whole of its interval is lent out. The time must have room for
it. -/
def lend (c : Clock P) : Except ClockError (Clock P) :=
  if c.dispatching then .error .reentrantTick
  else
    match Signed.add c.time c.tickLength with
    | .error f => .error (.listenerPanicked f.message)
    | .ok stop =>
      match c.budget.reset c.time stop with
      | .error f => .error (.listenerPanicked f.message)
      | .ok budget => .ok { c with budget, dispatching := true }

/-- Calls the listeners in turn until one fails. -/
def visitAll (serve : Service P) (behave : Behaviour σ) (phase : Phase) (thread : Thread)
    (start : Int) : List Listener → Clock P × σ → (Clock P × σ) × Option ClockError
  | [], st => (st, none)
  | x :: xs, (c, world) =>
    let r := Program.run serve phase (behave ⟨x, phase, c.budget, thread⟩ world) c
    match r.2.error? start with
    | some e => (r.1, some e)
    | none => visitAll serve behave phase thread start xs r.1

/-- The time moves on by a tick. An interrupt is used up, and ends the ticking. -/
def advance (c : Clock P) : Clock P × TickEnd :=
  let c := { c with dispatching := false, time := c.time + c.tickLength }
  if c.interrupted then
    ({ c with interrupted := false, ticking := false },
      if c.ticking then .interrupted else .completed)
  else (c, .completed)

/-- The listeners are those of the beginning, whatever callbacks do to the roster. -/
def tick (serve : Service P) (behave : Behaviour σ) (thread : Thread) : Ticker P σ :=
  fun (c, world) =>
    match c.lend with
    | .error e => ((c, world), .error e)
    | .ok lent =>
      match visitAll serve behave .tick thread c.time c.roster.names (lent, world) with
      | ((d, world), some e) => (({ d with dispatching := false }, world), .error e)
      | ((d, world), none) =>
        let spent := { d with budget := d.budget.consumeAll }
        match visitAll serve behave .after thread c.time c.roster.names (spent, world) with
        | ((d, world), some e) => (({ d with dispatching := false }, world), .error e)
        | ((d, world), none) =>
          let r := d.advance
          ((r.1, world), .ok r.2)

end Clock

end Metronome
