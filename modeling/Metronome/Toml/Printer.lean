-- Writes a settings file: first the values that stand alone, then a table
-- for each record.
import Metronome.Data
import Metronome.Range
import Metronome.Toml.Quoted

namespace Metronome.Toml

/-- A value that fits on one line. There are others that have no such form, and a whole number
must be a signed one of 64 bits. -/
def scalarText? : Data → Option (List Char)
  | .bool b => some (if b then "true" else "false").toList
  | .integer n => if Signed.Fits n then some (toString n).toList else none
  | .text (some s) => some (quote s)
  | _ => none

/-- The line of one member. Null has none. -/
def memberLine? : Option String × Data → Option (List Char)
  | (_, .null) => some []
  | (some name, d) => (scalarText? d).map fun text => name.toList ++ " = ".toList ++ text ++ ['\n']
  | (none, _) => none

def isTable (member : Option String × Data) : Bool :=
  match member.2 with
  | .record _ => true
  | _ => false

/-- The lines of members that are no records. -/
def memberLines? (members : List (Option String × Data)) : Option (List Char) :=
  (members.mapM memberLine?).map List.flatten

/-- A table with its header, and a blank line before it. -/
def tableText? : Option String × Data → Option (List Char)
  | (some name, .record members) =>
    (memberLines? members).map fun lines => ['\n', '['] ++ name.toList ++ [']', '\n'] ++ lines
  | _ => none

/-- A record of values and tables of values. The names must be bare words, and a value must
come first. -/
def print? : Data → Option String
  | .record members => do
    let lines ← memberLines? (members.filter fun m => !isTable m)
    let tables ← (members.filter isTable).mapM tableText?
    some (String.ofList (lines ++ tables.flatten))
  | _ => none

end Metronome.Toml
