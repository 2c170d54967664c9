-- A run that goes on by itself while others watch the clock and call it.
-- Their calls come between two steps of the run.

namespace Metronome

/-- How a run in the background stands: at a leg, or at its end. -/
inductive Background (L E : Type) where
  | idle
  | running (leg : L)
  | over (ending : E)
  deriving DecidableEq, Repr

namespace Background

variable {S L E : Type}

/-- Goes on until `done` holds or the run is over, for at most so many steps. -/
def stepUntil (step : L → S → S × (L ⊕ E)) (done : L → S → Bool) : Nat → L → S → S × (L ⊕ E)
  | 0, leg, s => (s, .inl leg)
  | n + 1, leg, s =>
    if done leg s then (s, .inl leg)
    else
      match step leg s with
      | (s, .inl leg) => stepUntil step done n leg s
      | r => r

/-- Lets a run go on until `done` holds. At its end `conclude` clears up. -/
def advance (step : L → S → S × (L ⊕ E)) (conclude : E → S → S) (done : L → S → Bool) (enough : Nat)
    (s : S) : Background L E → S × Background L E
  | .running leg =>
    match stepUntil step done enough leg s with
    | (s, .inl leg) => (s, .running leg)
    | (s, .inr ending) => (conclude ending s, .over ending)
  | b => (s, b)

end Background

end Metronome
