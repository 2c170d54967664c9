-- Decimal numerals with a point and an exponent, and the binary64 number
-- nearest to each.
import Metronome.Binary64

namespace Metronome.Text

/-- What a numeral stands for. -/
inductive Numeral where
  | notANumber
  | infinite (negative : Bool)
  /-- The number `digits · 10 ^ exponent`, with its sign. -/
  | decimal (negative : Bool) (digits : Nat) (exponent : Int)
  deriving DecidableEq, Repr

namespace Numeral

/-! ## Reading -/

def digitValue (c : Char) : Nat := c.toNat - '0'.toNat

/-- The number that a row of digits writes. -/
def ofDigits (cs : List Char) : Nat := cs.foldl (fun n c => 10 * n + digitValue c) 0

/-- A leading sign and the rest. No sign means no minus. -/
def signed : List Char → Bool × List Char
  | '-' :: cs => (true, cs)
  | '+' :: cs => (false, cs)
  | cs => (false, cs)

/-- An exponent with its letter, or nothing at all. -/
def exponent? : List Char → Option Int
  | [] => some 0
  | c :: cs =>
    if c = 'e' ∨ c = 'E' then
      let (negative, digits) := signed cs
      if digits ≠ [] ∧ digits.all Char.isDigit then
        some (if negative then -(ofDigits digits : Int) else ofDigits digits)
      else none
    else none

/-- Digits with at most one point among them, at least one digit, and an exponent. -/
def decimal? (negative : Bool) (cs : List Char) : Option Numeral :=
  let whole := cs.takeWhile Char.isDigit
  let rest := cs.dropWhile Char.isDigit
  let (part, tail) :=
    match rest with
    | '.' :: r => (r.takeWhile Char.isDigit, r.dropWhile Char.isDigit)
    | r => ([], r)
  if whole = [] ∧ part = [] then none
  else
    (exponent? tail).map fun e =>
      .decimal negative (ofDigits (whole ++ part)) (e - part.length)

/-- The words for what is no finite number are read in either case. -/
def read? (cs : List Char) : Option Numeral :=
  let (negative, body) := signed cs
  let word := String.ofList (body.map Char.toLower)
  if word = "inf" ∨ word = "infinity" then some (.infinite negative)
  else if word = "nan" then some .notANumber
  else decimal? negative body

/-! ## Values -/

/-- The exact number. -/
def exact (digits : Nat) (exponent : Int) : Rat :=
  if 0 ≤ exponent then ((digits * Nat.pow 10 exponent.toNat : Nat) : Rat)
  else mkRat digits (Nat.pow 10 (-exponent).toNat)

/-- How many decimal digits a number has. -/
def width (n : Nat) : Nat := (Nat.toDigits 10 n).length

/-- The nearest finite binary64 number. A numeral beyond all of them has none, and
one far below the least of them is zero. -/
def value? : Numeral → Option Rat
  | .notANumber => none
  | .infinite _ => none
  | .decimal negative digits exponent =>
    if digits = 0 then some 0
    else if 310 < exponent + width digits then none
    else if exponent + width digits < -330 then some 0
    else
      let x := exact digits exponent
      if Binary64.isFinite x then
        some (if negative then -Binary64.nearest x else Binary64.nearest x)
      else none

end Numeral

end Metronome.Text
