-- Plain data: what a settings file or a message holds before anyone asks
-- what it means.

namespace Metronome

inductive Data where
  | null
  | bool (b : Bool)
  | integer (n : Int)
  /-- A number that is not written as a whole number. Nobody asks for its value. -/
  | fraction
  /-- A number that is given by its value. -/
  | real (x : Rat)
  /-- A date, a time, or both. -/
  | moment
  /-- A text, or nothing where the writing names no valid text. -/
  | text (s : Option String)
  | list (items : List Data)
  /-- Named members in their order. A name may be no valid text either. -/
  | record (members : List (Option String × Data))

namespace Data

def string (s : String) : Data := .text (some s)

/-- A record whose names are all valid. -/
def object (members : List (String × Data)) : Data :=
  .record (members.map fun m => (some m.1, m.2))

/-! ## Views -/

def asBool? : Data → Option Bool
  | .bool b => some b
  | _ => none

def asInteger? : Data → Option Int
  | .integer n => some n
  | _ => none

def asText? : Data → Option String
  | .text s => s
  | _ => none

def asList? : Data → Option (List Data)
  | .list items => some items
  | _ => none

/-- The first member of that name. -/
def member? (d : Data) (name : String) : Option Data :=
  match d with
  | .record members => (members.find? fun m => m.1 == some name).map (·.2)
  | _ => none

end Data

end Metronome
