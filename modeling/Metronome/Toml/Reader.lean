-- Reads a settings file into plain data, statement by statement.
import Metronome.Toml.Quoted
import Metronome.Toml.Scalar
import Metronome.Toml.Table

namespace Metronome.Toml

/-! ## What stands between values -/

def skipBlank (cs : List Char) : List Char := cs.dropWhile isBlank

/-- Skips blanks, line breaks and comments. The flag says that a comment is open. -/
def skipGap (comment : Bool) : List Char → List Char
  | [] => []
  | c :: cs =>
    if c = '\n' then skipGap false cs
    else if comment then (if isPlain c then skipGap true cs else c :: cs)
    else if isBlank c then skipGap false cs
    else if c = '#' then skipGap true cs
    else c :: cs

def skipComment : List Char → List Char
  | '#' :: cs => cs.dropWhile isPlain
  | cs => cs

/-- The next line, if only blanks and a comment are left on this one. -/
def nextLine? (cs : List Char) : Option (List Char) :=
  match skipComment (skipBlank cs) with
  | [] => some []
  | '\n' :: rest => some rest
  | _ => none

/-- What follows a mark that must stand here. -/
def expect? (mark : Char) (cs : List Char) : Option (List Char) :=
  match cs with
  | c :: rest => if c = mark then some rest else none
  | [] => none

/-! ## Keys -/

def isKeyChar (c : Char) : Bool := c.isAlphanum || c = '-' || c = '_'

/-- One part of a key, quoted or bare. -/
def part? (cs : List Char) : Option (String × List Char) :=
  match quotedKey? cs with
  | some r => some r
  | none =>
    let word := cs.takeWhile isKeyChar
    if word = [] then none else some (String.ofList word, cs.dropWhile isKeyChar)

/-- No key has more parts than this, and nothing is nested deeper. -/
def deepest : Nat := 127

/-- Parts with points between them. The first argument bounds their number. -/
def parts? : Nat → List Char → Option (List String × List Char)
  | 0, _ => none
  | n + 1, cs => do
    let (first, rest) ← part? (skipBlank cs)
    match skipBlank rest with
    | '.' :: rest => (parts? n rest).map fun r => (first :: r.1, r.2)
    | rest => some ([first], rest)

def key? (cs : List Char) : Option (Key × List Char) := do
  let (parts, rest) ← parts? deepest cs
  some (⟨parts.dropLast, ← parts.getLast?⟩, rest)

/-! ## Values -/

mutual

/-- A value and what follows it. The first argument bounds the search, the second the
nesting. -/
def value? : Nat → Nat → List Char → Option (Data × List Char)
  | 0, _, _ => none
  | n + 1, depth, cs =>
    match cs with
    | '[' :: rest =>
      if depth = 0 then none
      else (items? n (depth - 1) rest).map fun r => (.list r.1, r.2)
    | '\x7b' :: rest =>
      if depth = 0 then none
      else
        match skipBlank rest with
        | '\x7d' :: rest => some (.record [], rest)
        | rest => do
          let (values, rest) ← inline? n (depth - 1) rest
          some (← ofValues? values, rest)
    | c :: _ =>
      if c = '\x22' ∨ c = '\'' then (string? cs).map fun r => (.string r.1, r.2) else scalar? cs
    | [] => none

/-- The items of a list up to its closing bracket. A comma may follow the last one. -/
def items? : Nat → Nat → List Char → Option (List Data × List Char)
  | 0, _, _ => none
  | n + 1, depth, cs =>
    match skipGap false cs with
    | ']' :: rest => some ([], rest)
    | cs =>
      match value? n depth cs with
      | none => none
      | some (d, rest) =>
        match skipGap false rest with
        | ',' :: rest => (items? n depth rest).map fun r => (d :: r.1, r.2)
        | ']' :: rest => some ([d], rest)
        | _ => none

/-- The values of an inline table up to its closing brace. No comma follows the last one. -/
def inline? : Nat → Nat → List Char → Option (List (Key × Data) × List Char)
  | 0, _, _ => none
  | n + 1, depth, cs =>
    match key? cs with
    | none => none
    | some (key, rest) =>
      match rest with
      | '=' :: rest =>
        match value? n depth (skipBlank rest) with
        | none => none
        | some (d, rest) =>
          match skipBlank rest with
          | ',' :: rest => (inline? n depth rest).map fun r => ((key, d) :: r.1, r.2)
          | '\x7d' :: rest => some ([(key, d)], rest)
          | _ => none
      | _ => none

end

/-! ## Statements -/

/-- A value under its key, on a line of its own. -/
def assignment? (cs : List Char) : Option (Statement × List Char) := do
  let (key, rest) ← key? cs
  let (d, rest) ← value? (2 * rest.length + 1) deepest (skipBlank (← expect? '=' rest))
  some (.value key d, ← nextLine? rest)

/-- A header behind its first bracket. -/
def header? (cs : List Char) : Option (Statement × List Char) :=
  match cs with
  | '[' :: cs => do
    let (key, rest) ← key? cs
    let rest ← expect? ']' (← expect? ']' rest)
    some (.listHeader key, ← nextLine? rest)
  | cs => do
    let (key, rest) ← key? cs
    some (.header key, ← nextLine? (← expect? ']' rest))

/-- The statements of a file. The first argument bounds their number. -/
def statements? : Nat → List Char → Option (List Statement)
  | 0, _ => none
  | n + 1, cs =>
    match skipGap false cs with
    | [] => some []
    | '[' :: rest => do
      let (s, rest) ← header? rest
      (statements? n rest).map (s :: ·)
    | cs => do
      let (s, rest) ← assignment? cs
      (statements? n rest).map (s :: ·)

/-- A line may also end with a carriage return before its line break. -/
def lineBreaks : List Char → List Char
  | [] => []
  | '\r' :: '\n' :: cs => '\n' :: lineBreaks cs
  | c :: cs => c :: lineBreaks cs

/-- A file may begin with a byte order mark. -/
def skipMark : List Char → List Char
  | '\ufeff' :: cs => cs
  | cs => cs

/-- The record that a whole file describes. -/
def read? (text : String) : Option Data :=
  let cs := lineBreaks (skipMark text.toList)
  (statements? (cs.length + 1) cs).bind ofStatements?

end Metronome.Toml
