-- Percentiles of sorted numbers. The rank is a binary64 product, cut to a
-- whole number.
import Metronome.Binary64

namespace Metronome

/-- The place of a quantile in a list of `count` numbers, before the last place caps it. -/
def quantileRank (count : Nat) (quantile : Rat) : Nat :=
  Binary64.truncate (Binary64.mul (Binary64.ofInt count) quantile)

/-- The number at a quantile of an ascending list. An empty list gives `none`. -/
def percentile? {α : Type} (sorted : List α) (quantile : Rat) : Option α :=
  sorted[min (quantileRank sorted.length quantile) (sorted.length - 1)]?

/-- A count of thousandths as a quantile. -/
def thousandths (t : Int) : Rat := Binary64.div (Binary64.ofInt t) 1000

def ascending (l : List Nat) : List Nat := l.mergeSort fun a b => decide (a ≤ b)

end Metronome
