-- Values of a settings file that are written as one word: booleans, numbers,
-- dates and times.
import Metronome.Data
import Metronome.Range
import Metronome.Text.Hex
import Metronome.Text.Numeral

namespace Metronome.Toml

/-! ## Whole numbers -/

/-- Digits with single underscores between them. The underscores go. -/
def digits? (isDigit : Char → Bool) : List Char → Option (List Char)
  | [] => none
  | [c] => if isDigit c then some [c] else none
  | c :: '_' :: cs => if isDigit c then (digits? isDigit cs).map (c :: ·) else none
  | c :: cs => if isDigit c then (digits? isDigit cs).map (c :: ·) else none

/-- Decimal digits without a needless zero in front. -/
def wholeDigits? (cs : List Char) : Option (List Char) := do
  let digits ← digits? Char.isDigit cs
  if digits.head? = some '0' ∧ cs ≠ ['0'] then none else some digits

def isOctal (c : Char) : Bool := '0' ≤ c && c ≤ '7'

def isBinary (c : Char) : Bool := c = '0' || c = '1'

/-- The number that digits of the base write. -/
def inBase (base : Nat) (digits : List Char) : Nat :=
  digits.foldl (fun n c => base * n + (Text.hexValue? c).getD 0) 0

/-- A whole number in one of four bases. Only a decimal one has a sign. -/
def whole? : List Char → Option Int
  | '0' :: 'x' :: cs =>
    (digits? (fun c => (Text.hexValue? c).isSome) cs).map fun ds => (inBase 16 ds : Int)
  | '0' :: 'o' :: cs => (digits? isOctal cs).map fun ds => (inBase 8 ds : Int)
  | '0' :: 'b' :: cs => (digits? isBinary cs).map fun ds => (inBase 2 ds : Int)
  | cs =>
    let (negative, body) := Text.Numeral.signed cs
    (wholeDigits? body).map fun ds =>
      if negative then -(Text.Numeral.ofDigits ds : Int) else Text.Numeral.ofDigits ds

/-! ## Other numbers -/

def isDigitPart (c : Char) : Bool := c.isDigit || c = '_'

/-- An exponent behind its letter. -/
def exponent? (cs : List Char) : Option Int :=
  let (negative, body) := Text.Numeral.signed cs
  (digits? Char.isDigit body).map fun ds =>
    if negative then -(Text.Numeral.ofDigits ds : Int) else Text.Numeral.ofDigits ds

/-- What follows the whole part: a point with digits, an exponent, or both. -/
def tail? : List Char → Option (List Char × Int)
  | '.' :: cs => do
    let digits ← digits? Char.isDigit (cs.takeWhile isDigitPart)
    match cs.dropWhile isDigitPart with
    | [] => some (digits, 0)
    | c :: rest =>
      if c = 'e' ∨ c = 'E' then (exponent? rest).map fun e => (digits, e) else none
  | c :: cs => if c = 'e' ∨ c = 'E' then (exponent? cs).map fun e => ([], e) else none
  | [] => none

/-- A number with a point or an exponent. -/
def numeral? (cs : List Char) : Option Text.Numeral := do
  let (negative, body) := Text.Numeral.signed cs
  let whole ← wholeDigits? (body.takeWhile isDigitPart)
  let (part, e) ← tail? (body.dropWhile isDigitPart)
  some (.decimal negative (Text.Numeral.ofDigits (whole ++ part)) (e - part.length))

/-- No number may be too large for binary64 above zero. Below zero any may be written. -/
def isAllowed (n : Text.Numeral) : Bool :=
  match n with
  | .decimal false _ _ => n.value?.isSome
  | _ => true

def isFraction (cs : List Char) : Bool :=
  let body := (Text.Numeral.signed cs).2
  body = "inf".toList || body = "nan".toList || ((numeral? cs).map isAllowed).getD false

/-! ## Dates and times -/

/-- Two digits that write a number in a range, and what follows. -/
def two? (least greatest : Nat) : List Char → Option (List Char)
  | a :: b :: cs =>
    let n := Text.Numeral.ofDigits [a, b]
    if a.isDigit ∧ b.isDigit ∧ least ≤ n ∧ n ≤ greatest then some cs else none
  | _ => none

def mark? (mark : Char) : List Char → Option (List Char)
  | c :: cs => if c = mark then some cs else none
  | [] => none

/-- What follows a date. -/
def date? : List Char → Option (List Char)
  | a :: b :: c :: d :: cs => do
    if ¬ [a, b, c, d].all Char.isDigit then none
    let cs ← two? 1 12 (← mark? '-' cs)
    two? 1 31 (← mark? '-' cs)
  | _ => none

/-- What follows the digits behind a point. There must be one. -/
def secondsPart? : List Char → Option (List Char)
  | '.' :: c :: cs => if c.isDigit then some (cs.dropWhile Char.isDigit) else none
  | '.' :: [] => none
  | cs => some cs

/-- What follows a time of day. -/
def time? (cs : List Char) : Option (List Char) := do
  let cs ← two? 0 59 (← mark? ':' (← two? 0 23 cs))
  secondsPart? (← two? 0 60 (← mark? ':' cs))

/-- What follows the offset from universal time, which may be missing. -/
def offset? : List Char → Option (List Char)
  | [] => some []
  | c :: cs =>
    if c = 'Z' ∨ c = 'z' then some cs
    else if c = '+' ∨ c = '-' then do two? 0 59 (← mark? ':' (← two? 0 23 cs))
    else none

/-- A time of day and an offset, and nothing else. -/
def isOffsetTime (cs : List Char) : Bool := (time? cs).bind offset? = some []

def isDate (cs : List Char) : Bool := date? cs = some []

/-- A date, a time, or a date and a time with a letter between them. -/
def isMoment (cs : List Char) : Bool :=
  time? cs = some [] ||
    match date? cs with
    | none => false
    | some [] => true
    | some (c :: rest) => (c = 'T' || c = 't') && isOffsetTime rest

/-! ## Words -/

def isWordChar (c : Char) : Bool := c.isAlphanum || "_+-.:".toList.contains c

def ofWord? (cs : List Char) : Option Data :=
  if cs = "true".toList then some (.bool true)
  else if cs = "false".toList then some (.bool false)
  else
    match whole? cs with
    | some n => if Signed.Fits n then some (.integer n) else none
    | none => if isFraction cs then some .fraction else if isMoment cs then some .moment else none

/-- A date may be followed by a blank and a time, and both are one value. -/
def skipTime (rest : List Char) : List Char :=
  match rest with
  | ' ' :: r => if isOffsetTime (r.takeWhile isWordChar) then r.dropWhile isWordChar else rest
  | _ => rest

/-- A value that is one word, and what follows. -/
def scalar? (cs : List Char) : Option (Data × List Char) :=
  let word := cs.takeWhile isWordChar
  let rest := cs.dropWhile isWordChar
  (ofWord? word).map fun d => (d, if isDate word then skipTime rest else rest)

end Metronome.Toml
