-- Whole numbers of 64 bits, written in decimal digits with a sign or
-- without one.
import Metronome.Range
import Metronome.Text.Numeral

namespace Metronome.Text

/-- The number that a word of digits writes, if it is one. -/
def digits? (cs : List Char) : Option Nat :=
  if cs ≠ [] ∧ cs.all Char.isDigit then some (Numeral.ofDigits cs) else none

/-- A number without a minus sign. -/
def unsigned? (s : String) : Option Nat := do
  let n ← match s.toList with
    | '+' :: cs => digits? cs
    | cs => digits? cs
  if Unsigned.Fits n then some n else none

def signed? (s : String) : Option Int := do
  let (negative, cs) := Numeral.signed s.toList
  let n ← digits? cs
  let value : Int := if negative then -n else n
  if Signed.Fits value then some value else none

end Metronome.Text
