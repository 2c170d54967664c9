-- What a listener does when a tick calls it: a program that asks the clock
-- one thing after another and ends well, with an error, or by giving up.
import Metronome.Clock.Basic
import Metronome.Clock.Call

namespace Metronome

/-- Every listener is called twice a tick. -/
inductive Phase where
  | tick
  | after
  deriving DecidableEq, Repr

/-- What a listener is told when it is called. -/
structure Visit where
  listener : Listener
  phase : Phase
  budget : Budget
  thread : Thread
  deriving DecidableEq, Repr

/-- How a callback ends. -/
inductive Verdict where
  | fine
  | failed (source : String)
  | panicked (message : String)
  deriving DecidableEq, Repr

/-- A callback in a world `σ` of which the clock knows nothing. -/
inductive Program (σ : Type) where
  | finish (world : σ) (verdict : Verdict)
  | ask (call : Call) (next : Answer → Program σ)

/-- What every listener does at every visit. -/
abbrev Behaviour (σ : Type) := Visit → σ → Program σ

/-- How a clock serves a call that comes from inside a tick. -/
abbrev Service (P : Type) := Clock P → Call → Clock P × Answer

/-- A failed callback as the error of a tick that began at `time`. -/
def Verdict.error? (time : Int) : Verdict → Option ClockError
  | .fine => none
  | .failed source => some (.listener time source)
  | .panicked message => some (.listenerPanicked message)

namespace Program

variable {σ P : Type}

/-- The calls on the budget. In the second phase it can only be looked at. -/
def onBudget (phase : Phase) (c : Clock P) : Call → Option (Clock P × Answer)
  | .consume amount =>
    match phase with
    | .tick =>
      match c.budget.consume amount with
      | .ok budget => some ({ c with budget }, .done)
      | .error e => some (c, .refused e)
    | .after => some (c, .unavailable)
  | .consumeAll =>
    match phase with
    | .tick => some ({ c with budget := c.budget.consumeAll }, .done)
    | .after => some (c, .unavailable)
  | .budget => some (c, .budget c.budget)
  | _ => none

/-- One call, on the budget or on the clock. -/
def reply (serve : Service P) (phase : Phase) (c : Clock P) (call : Call) : Clock P × Answer :=
  (onBudget phase c call).getD (serve c call)

/-- Runs a callback to its end. -/
def run (serve : Service P) (phase : Phase) : Program σ → Clock P → (Clock P × σ) × Verdict
  | .finish world verdict, c => ((c, world), verdict)
  | .ask call next, c =>
    let r := reply serve phase c call
    run serve phase (next r.2) r.1

end Program

end Metronome
