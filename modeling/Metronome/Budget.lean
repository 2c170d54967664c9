-- The time budget of one tick. Listeners share it, and no one may take
-- more than is left.
import Metronome.TimeUnit

namespace Metronome

/-- The interval of a tick and how much of it is still free. -/
structure Budget where
  start : Int
  stop : Int
  left : Int
  unit : TimeUnit
  deriving DecidableEq, Repr

/-- An amount that the budget refuses. -/
inductive BudgetError where
  | cannotConsume (amount left : Int)
  deriving DecidableEq, Repr

def BudgetError.message : BudgetError → String
  | .cannotConsume amount left =>
    "Cannot consume " ++ toString amount ++ ", only " ++ toString left ++ " left in this tick"

namespace Budget

/-- The budget of a clock that has not ticked yet. -/
def blank (unit : TimeUnit) : Budget := ⟨0, 0, 0, unit⟩

/-- The whole interval from `start` to `stop` becomes free. -/
def reset (b : Budget) (start stop : Int) : Except Fault Budget :=
  if start < stop then
    (Signed.sub stop start).map fun n => { b with start := start, stop := stop, left := n }
  else .error .emptyInterval

/-- Takes an amount out of what is left. -/
def consume (b : Budget) (amount : Int) : Except BudgetError Budget :=
  if amount < 0 ∨ b.left < amount then .error (.cannotConsume amount b.left)
  else .ok { b with left := b.left - amount }

def consumeAll (b : Budget) : Budget := { b with left := 0 }

def length (b : Budget) : Int := b.stop - b.start

def consumed (b : Budget) : Int := b.length - b.left

def hasLeft (b : Budget) : Bool := decide (0 < b.left)

/-- The end of the interval is outside it. -/
def covers (b : Budget) (t : Int) : Bool := decide (b.start ≤ t ∧ t < b.stop)

/-- Half of what is left, rounded toward zero. -/
def half (b : Budget) : Int := b.left.tdiv 2

def text (b : Budget) : String :=
  "[" ++ toString b.start ++ "," ++ toString b.stop ++ ")" ++ b.unit.symbol
    ++ " left=" ++ toString b.left

end Budget

end Metronome
