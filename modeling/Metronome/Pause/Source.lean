-- Who can say how much pause time lay in the recent past.

namespace Metronome.Pause

/-- A source of answers, and the questions that it was asked so far. -/
structure Source where
  /-- What it says, from the number of questions before and the nanoseconds asked for. -/
  answer : Nat → Nat → Nat
  asked : List Nat := []

namespace Source

/-- A source that knows of no pause. -/
def silent : Source := { answer := fun _ _ => 0 }

/-- A source that gives prepared answers in turn, and the last one for ever. -/
def prepared (answers : List Nat) : Source :=
  { answer := fun k _ => (answers[min k (answers.length - 1)]?).getD 0 }

def ask (s : Source) (nanos : Nat) : Source × Nat :=
  ({ s with asked := s.asked ++ [nanos] }, s.answer s.asked.length nanos)

end Source

end Metronome.Pause
