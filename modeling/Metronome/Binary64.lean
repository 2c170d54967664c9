-- Binary64 numbers as exact rationals. An operation on them is the exact
-- operation followed by `nearest`, which rounds to 53 significant bits, or
-- to a multiple of 2^-1074 near zero, and sends a tie to the even neighbour.
import Metronome.Range

namespace Metronome

namespace Binary64

/-! ## Rounding -/

/-- The nearest integer. Of two equally near ones the even one. -/
def roundEven (x : Rat) : Int :=
  let low := x.floor
  let rest := x - low
  if rest < 1 / 2 then low
  else if 1 / 2 < rest then low + 1
  else if low % 2 = 0 then low
  else low + 1

/-- A power of two, also below one. -/
def twoPow (k : Int) : Rat :=
  if 0 ≤ k then (Nat.pow 2 k.toNat : Rat) else 1 / (Nat.pow 2 (-k).toNat : Rat)

/-- The largest `k` with `2^k ≤ x`, for a positive `x`. -/
def log2 (x : Rat) : Int :=
  let k : Int := (Nat.log2 x.num.natAbs : Int) - (Nat.log2 x.den : Int)
  if x < twoPow k then k - 1 else k

/-- The exponent of the last place of a number as large as `x`. -/
def lastPlace (x : Rat) : Int := max (-1074) (log2 x.abs - 52)

/-- The binary64 number nearest to `x`, as if exponents had no upper end. -/
def nearest (x : Rat) : Rat :=
  if x = 0 then 0
  else (roundEven (x / twoPow (lastPlace x)) : Rat) * twoPow (lastPlace x)

/-- Where binary64 numbers end. What rounds to this or beyond is infinite. -/
def limit : Rat := twoPow 1024

def isFinite (x : Rat) : Bool := decide ((nearest x).abs < limit)

/-! ## Operations -/

def add (x y : Rat) : Rat := nearest (x + y)

def sub (x y : Rat) : Rat := nearest (x - y)

def mul (x y : Rat) : Rat := nearest (x * y)

def div (x y : Rat) : Rat := nearest (x / y)

def ofInt (n : Int) : Rat := nearest n

/-- The sum of a list, rounded after every step from left to right. -/
def sum (l : List Rat) : Rat := l.foldl add 0

/-- The nearest root of a number that is not negative. -/
def sqrt (x : Rat) : Rat :=
  if x ≤ 0 then 0
  else
    let e := (log2 x).fdiv 2 - 52
    let y := x / (twoPow e * twoPow e)
    let low := Nat.sqrt y.floor.toNat
    let middle : Rat := (low : Rat) + 1 / 2
    let root := if middle * middle < y then low + 1 else low
    (root : Rat) * twoPow e

/-- The whole part, as an unsigned number. Nothing negative has one. -/
def truncate (x : Rat) : Nat := Unsigned.clamp x.floor.toNat

/-! ## Bits -/

/-- The 64-bit pattern of a binary64 number: its sign, its exponent and its fraction. -/
def bits (x : Rat) : Nat :=
  let sign := if x < 0 then Nat.pow 2 63 else 0
  if x = 0 then 0
  else
    let e := lastPlace x
    let m := (x.abs / twoPow e).floor.toNat
    let hidden := Nat.pow 2 52
    sign + (if m < hidden then m else (e + 1075).toNat * hidden + (m - hidden))

end Binary64

end Metronome
