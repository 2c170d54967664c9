-- Writes plain data as JSON text, on one line or indented by two blanks.
import Metronome.Data
import Metronome.Text.Hex

namespace Metronome.Json

/-! ## Strings -/

/-- How a string shows one character. Quotes, backslashes and control characters are escaped. -/
def escape (c : Char) : List Char :=
  if c = '\x22' then ['\\', '\x22']
  else if c = '\\' then ['\\', '\\']
  else if c = '\x08' then ['\\', 'b']
  else if c = '\x0c' then ['\\', 'f']
  else if c = '\n' then ['\\', 'n']
  else if c = '\r' then ['\\', 'r']
  else if c = '\t' then ['\\', 't']
  else if c.toNat < 0x20 then
    ['\\', 'u', '0', '0', Text.lowerHexDigit (c.toNat / 16),
      Text.lowerHexDigit (c.toNat % 16)]
  else [c]

def quoted (s : String) : String :=
  String.ofList ('\x22' :: (s.toList.flatMap escape ++ ['\x22']))

/-! ## Values -/

/-- Every digit of a binary64 number, with one behind the point at least. -/
def realText (x : Rat) : String :=
  let places := max x.den.log2 1
  let digits := toString (x.num.natAbs * Nat.pow 10 places / x.den)
  let padded := List.replicate (places + 1 - digits.length) '0' ++ digits.toList
  let whole := padded.length - places
  String.ofList ((if x < 0 then ['-'] else []) ++ padded.take whole ++ '.' :: padded.drop whole)

/-- A text that is not valid is shown as an empty one. -/
def quotedText (s : Option String) : String := quoted (s.getD "")

mutual

/-- A value on one line, without any blank. -/
def print : Data → String
  | .null => "null"
  | .bool b => if b then "true" else "false"
  | .integer n => toString n
  | .fraction => "0.0"
  | .real x => realText x
  | .moment => "null"
  | .text s => quotedText s
  | .list items => "[" ++ ",".intercalate (printItems items) ++ "]"
  | .record members => "\x7b" ++ ",".intercalate (printMembers members) ++ "\x7d"

def printItems : List Data → List String
  | [] => []
  | d :: ds => print d :: printItems ds

def printMembers : List (Option String × Data) → List String
  | [] => []
  | (key, d) :: ds => (quotedText key ++ ":" ++ print d) :: printMembers ds

end

/-! ## Indented values -/

/-- Blocks between brackets, each on a line of its own. -/
def block (opening closing indent : String) (lines : List String) : String :=
  if lines = [] then opening ++ closing
  else
    let inner := indent ++ "  "
    opening ++ "\n" ++ inner ++ (",\n" ++ inner).intercalate lines ++ "\n" ++ indent ++ closing

mutual

def printIndented (indent : String) : Data → String
  | .list items => block "[" "]" indent (indentedItems (indent ++ "  ") items)
  | .record members => block "\x7b" "\x7d" indent (indentedMembers (indent ++ "  ") members)
  | d => print d

def indentedItems (indent : String) : List Data → List String
  | [] => []
  | d :: ds => printIndented indent d :: indentedItems indent ds

def indentedMembers (indent : String) : List (Option String × Data) → List String
  | [] => []
  | (key, d) :: ds =>
    (quotedText key ++ ": " ++ printIndented indent d) :: indentedMembers indent ds

end

/-- A value with one item or member a line. -/
def pretty (d : Data) : String := printIndented "" d

end Metronome.Json
