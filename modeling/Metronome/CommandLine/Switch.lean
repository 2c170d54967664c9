-- The words of a command line. A switch has a name behind two dashes and
-- perhaps a letter behind one, takes a value or none, and may stand once.

namespace Metronome.CommandLine

/-- Why reading the words comes to an end before a run. -/
inductive Stop where
  /-- The words make no sense. -/
  | misuse
  | help
  | version
  deriving DecidableEq, Repr

/-- What a switch does to what is read so far. -/
inductive Effect (α : Type) where
  /-- It takes a value, which may be refused. -/
  | value (set : String → α → Option α)
  | flag (set : α → α)
  | stop (why : Stop)

structure Switch (α : Type) where
  name : String
  letter : Option Char := none
  effect : Effect α

/-- What is read so far, and the names of the switches that stood there. -/
structure Progress (α : Type) where
  state : α
  used : List String := []

namespace Switch

variable {α β : Type}

/-- A switch for a part of what is read. -/
def onPart (get : β → α) (set : α → β → β) (s : Switch α) : Switch β :=
  { name := s.name
    letter := s.letter
    effect :=
      match s.effect with
      | .value f => .value fun text b => (f text (get b)).map fun a => set a b
      | .flag f => .flag fun b => set (f (get b)) b
      | .stop why => .stop why }

/-- Notes a switch. None may stand twice. -/
def note (s : Switch α) (p : Progress α) (state : Option α) : Except Stop (Progress α) :=
  match state with
  | none => .error .misuse
  | some state =>
    if p.used.contains s.name then .error .misuse else .ok { state, used := s.name :: p.used }

end Switch

/-! ## Words -/

/-- A word that looks like a switch is no value. A lone dash does not look like one. -/
def looksLikeSwitch (word : String) : Bool := "-".isPrefixOf word && word ≠ "-"

/-- A word behind two dashes: a name, and a value if there is an equals sign. -/
def splitLong (cs : List Char) : String × Option String :=
  match cs.dropWhile (· ≠ '=') with
  | [] => (String.ofList cs, none)
  | _ :: value => (String.ofList (cs.takeWhile (· ≠ '=')), some (String.ofList value))

/-- A value behind a letter. An equals sign before it does not belong to it. -/
def attached? : List Char → Option String
  | [] => none
  | '=' :: cs => some (String.ofList cs)
  | cs => some (String.ofList cs)

/-- What a word leaves to be read: nothing, or the value of a switch. -/
inductive Owed (α : Type) where
  | nothing
  | valueOf (s : Switch α)

variable {α : Type}

/-- A switch with its value, where the word holds one. -/
def takeValue (s : Switch α) (set : String → α → Option α) (value : Option String)
    (p : Progress α) : Except Stop (Progress α × Owed α) :=
  match value with
  | some text => (s.note p (set text p.state)).map fun p => (p, .nothing)
  | none => .ok (p, .valueOf s)

/-- A word behind two dashes. -/
def readLong (switches : List (Switch α)) (p : Progress α) (cs : List Char) :
    Except Stop (Progress α × Owed α) :=
  let (name, value) := splitLong cs
  match switches.find? fun s => s.name == name with
  | none => .error .misuse
  | some s =>
    match s.effect, value with
    | .value set, value => takeValue s set value p
    | .flag f, none => (s.note p (some (f p.state))).map fun p => (p, .nothing)
    | .stop why, none => .error why
    | _, some _ => .error .misuse

/-- Letters behind one dash. What follows the letter of a switch with a value is that value. -/
def readLetters (switches : List (Switch α)) :
    Progress α → List Char → Except Stop (Progress α × Owed α)
  | p, [] => .ok (p, .nothing)
  | p, c :: cs =>
    match switches.find? fun s => s.letter == some c with
    | none => .error .misuse
    | some s =>
      match s.effect with
      | .value set => takeValue s set (attached? cs) p
      | .flag f =>
        match s.note p (some (f p.state)) with
        | .ok p => readLetters switches p cs
        | .error stop => .error stop
      | .stop why => .error why

def readSwitch (switches : List (Switch α)) (p : Progress α) (word : String) :
    Except Stop (Progress α × Owed α) :=
  match word.toList with
  | '-' :: '-' :: cs => readLong switches p cs
  | '-' :: cs => readLetters switches p cs
  | _ => .error .misuse

/-- The value that the last switch still wants. -/
def readOwed (s : Switch α) (p : Progress α) (word : String) : Except Stop (Progress α) :=
  match s.effect with
  | .value set => if looksLikeSwitch word then .error .misuse else s.note p (set word p.state)
  | _ => .error .misuse

/-- Reads words up to the first that is no switch and no value of one. That word and what
follows it are left. Two dashes alone end the switches, and only the end may follow them. -/
def readWords (switches : List (Switch α)) :
    Owed α → Progress α → List String → Except Stop (Progress α × List String)
  | .nothing, p, [] => .ok (p, [])
  | .valueOf _, _, [] => .error .misuse
  | .valueOf s, p, word :: words =>
    match readOwed s p word with
    | .ok p => readWords switches .nothing p words
    | .error stop => .error stop
  | .nothing, p, word :: words =>
    if word = "--" then (if words = [] then .ok (p, []) else .error .misuse)
    else if looksLikeSwitch word then
      match readSwitch switches p word with
      | .ok (p, owed) => readWords switches owed p words
      | .error stop => .error stop
    else .ok (p, word :: words)

end Metronome.CommandLine
