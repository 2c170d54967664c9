-- Reads JSON text into plain data. A text is one value with white space
-- around it, and nothing else.
import Metronome.Data
import Metronome.Text.Hex
import Metronome.Text.Numeral

namespace Metronome.Json

/-- JSON knows four characters of white space. -/
def isBlank (c : Char) : Bool := c = ' ' || c = '\n' || c = '\t' || c = '\r'

def skipBlank (cs : List Char) : List Char := cs.dropWhile isBlank

/-! ## Strings -/

/-- One piece of a string: a character, or half of one that is written as two escapes. -/
inductive Piece where
  | char (c : Char)
  | half (code : Nat)
  deriving DecidableEq, Repr

def simpleEscape? : Char → Option Char
  | '\x22' => some '\x22'
  | '\\' => some '\\'
  | '/' => some '/'
  | 'b' => some '\x08'
  | 'f' => some '\x0c'
  | 'n' => some '\n'
  | 'r' => some '\r'
  | 't' => some '\t'
  | _ => none

/-- The pieces up to the closing quote, and what follows it. -/
def pieces : List Char → Option (List Piece × List Char)
  | [] => none
  | '\x22' :: cs => some ([], cs)
  | '\\' :: 'u' :: a :: b :: c :: d :: cs =>
    match Text.hexNumber? [a, b, c, d] with
    | some n =>
      let piece := if 0xD800 ≤ n ∧ n ≤ 0xDFFF then Piece.half n else .char (Char.ofNat n)
      (pieces cs).map fun r => (piece :: r.1, r.2)
    | none => none
  | '\\' :: e :: cs =>
    match simpleEscape? e with
    | some c => (pieces cs).map fun r => (.char c :: r.1, r.2)
    | none => none
  | c :: cs =>
    if c.toNat < 0x20 ∨ c = '\\' then none
    else (pieces cs).map fun r => (.char c :: r.1, r.2)

/-- Joins the halves of characters. A half that stands alone names no text. -/
def join : List Piece → Option (List Char)
  | [] => some []
  | .char c :: ps => (join ps).map (c :: ·)
  | .half hi :: .half lo :: ps =>
    if hi < 0xDC00 ∧ 0xDC00 ≤ lo then
      (join ps).map (Char.ofNat (0x10000 + (hi - 0xD800) * 0x400 + (lo - 0xDC00)) :: ·)
    else none
  | .half _ :: _ => none

/-- A string behind its opening quote. -/
def string (cs : List Char) : Option (Option String × List Char) :=
  (pieces cs).map fun r => ((join r.1).map String.ofList, r.2)

/-! ## Numbers -/

/-- Digits without a needless zero in front. -/
def wholePart (cs : List Char) : Option (List Char × List Char) :=
  match cs with
  | '0' :: r => some (['0'], r)
  | _ =>
    let digits := cs.takeWhile Char.isDigit
    if digits = [] then none else some (digits, cs.dropWhile Char.isDigit)

/-- A row of digits that must not be empty. -/
def skipDigits (cs : List Char) : Option (List Char) :=
  match cs with
  | c :: r => if c.isDigit then some (r.dropWhile Char.isDigit) else none
  | [] => none

def skipExponent (cs : List Char) : Option (List Char) :=
  match cs with
  | '+' :: r => skipDigits r
  | '-' :: r => skipDigits r
  | r => skipDigits r

/-- What may follow the whole part: a fraction, an exponent, both, or nothing. The
flag says whether anything did. -/
def skipTail (cs : List Char) : Option (Bool × List Char) := do
  let (point, r) ←
    match cs with
    | '.' :: r => (skipDigits r).map fun r => (true, r)
    | r => some (false, r)
  match r with
  | 'e' :: r => (skipExponent r).map fun r => (true, r)
  | 'E' :: r => (skipExponent r).map fun r => (true, r)
  | r => some (point, r)

/-- A number. Minus zero is no whole number. -/
def number (cs : List Char) : Option (Data × List Char) := do
  let (negative, body) :=
    match cs with
    | '-' :: r => (true, r)
    | r => (false, r)
  let (digits, r) ← wholePart body
  let (tail, r) ← skipTail r
  let n := Text.Numeral.ofDigits digits
  if tail ∨ (negative ∧ n = 0) then some (.fraction, r)
  else some (.integer (if negative then -n else n), r)

/-! ## Values -/

/-- The text behind a word that it must begin with. -/
def expect (word : String) (cs : List Char) : Option (List Char) :=
  if word.toList.isPrefixOf cs then some (cs.drop word.length) else none

mutual

/-- A value and what follows it. The first argument bounds the depth of the search. -/
def value : Nat → List Char → Option (Data × List Char)
  | 0, _ => none
  | n + 1, cs =>
    match skipBlank cs with
    | 'n' :: r => (expect "ull" r).map fun r => (.null, r)
    | 't' :: r => (expect "rue" r).map fun r => (.bool true, r)
    | 'f' :: r => (expect "alse" r).map fun r => (.bool false, r)
    | '\x22' :: r => (string r).map fun s => (.text s.1, s.2)
    | '[' :: r =>
      match skipBlank r with
      | ']' :: r => some (.list [], r)
      | r => (items n r).map fun l => (.list l.1, l.2)
    | '\x7b' :: r =>
      match skipBlank r with
      | '\x7d' :: r => some (.record [], r)
      | r => (members n r).map fun l => (.record l.1, l.2)
    | r => number r

/-- The items of a list up to its closing bracket. -/
def items : Nat → List Char → Option (List Data × List Char)
  | 0, _ => none
  | n + 1, cs =>
    match value n cs with
    | some (v, r) =>
      match skipBlank r with
      | ',' :: r => (items n r).map fun l => (v :: l.1, l.2)
      | ']' :: r => some ([v], r)
      | _ => none
    | none => none

/-- The members of a record up to its closing brace. -/
def members : Nat → List Char → Option (List (Option String × Data) × List Char)
  | 0, _ => none
  | n + 1, cs =>
    match skipBlank cs with
    | '\x22' :: r =>
      match string r with
      | some (key, r) =>
        match skipBlank r with
        | ':' :: r =>
          match value n r with
          | some (v, r) =>
            match skipBlank r with
            | ',' :: r => (members n r).map fun l => ((key, v) :: l.1, l.2)
            | '\x7d' :: r => some ([(key, v)], r)
            | _ => none
          | none => none
        | _ => none
      | none => none
    | _ => none

end

/-- The value that a whole text writes. -/
def read? (text : String) : Option Data :=
  let cs := text.toList
  match value (2 * cs.length + 1) cs with
  | some (v, r) => if skipBlank r = [] then some v else none
  | none => none

end Metronome.Json
