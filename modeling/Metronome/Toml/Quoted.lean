-- Strings of a settings file. Between double quotes a backslash escapes,
-- between single quotes nothing does, and three quotes allow line breaks.
import Metronome.Text.Blank
import Metronome.Text.Hex

namespace Metronome.Toml

/-! ## Characters -/

/-- TOML knows two characters of white space within a line. -/
def isBlank (c : Char) : Bool := c = ' ' || c = '\t'

/-- Of the control characters only the tab may stand for itself. -/
def isPlain (c : Char) : Bool := c = '\t' || (0x20 ≤ c.toNat && c.toNat ≠ 0x7F)

/-- What may stand for itself between quotes. -/
def mayStand (multi : Bool) (c : Char) : Bool := isPlain c || (multi && c = '\n')

/-! ## Reading -/

/-- One piece of a string between double quotes. -/
inductive Piece where
  | plain (c : Char)
  | escaped (c : Char)
  /-- A backslash at the end of a line: the line break and the blanks behind it are no text. -/
  | splice
  deriving DecidableEq, Repr

def simpleEscape? : Char → Option Char
  | 'b' => some '\x08'
  | 't' => some '\t'
  | 'n' => some '\n'
  | 'f' => some '\x0c'
  | 'r' => some '\r'
  | '\x22' => some '\x22'
  | '\\' => some '\\'
  | _ => none

/-- The character that an escape names by its number. -/
def codeEscape? (digits : List Char) : Option Piece := do
  let n ← Text.hexNumber? digits
  if n.isValidChar then some (.escaped (Char.ofNat n)) else none

/-- The end of a string at its first quote: quotes that still belong to it, and what follows. -/
def ending? (quote : Char) (multi : Bool) (cs : List Char) : Option (List Char × List Char) :=
  if multi then
    let quotes := cs.takeWhile (· = quote)
    if quotes.length < 2 then none
    else some ((quotes.drop 2).take 2, cs.drop (min quotes.length 4))
  else some ([], cs)

/-- Puts a piece in front of what was read. -/
def push {α : Type} (a : α) (r : Option (List α × List Char)) : Option (List α × List Char) :=
  r.map fun r => (a :: r.1, r.2)

/-- The pieces between double quotes, and what follows. -/
def pieces (multi : Bool) : List Char → Option (List Piece × List Char)
  | [] => none
  | '\\' :: 'u' :: a :: b :: c :: d :: cs =>
    (codeEscape? [a, b, c, d]).bind fun piece => push piece (pieces multi cs)
  | '\\' :: 'U' :: a :: b :: c :: d :: e :: f :: g :: h :: cs =>
    (codeEscape? [a, b, c, d, e, f, g, h]).bind fun piece => push piece (pieces multi cs)
  | '\\' :: e :: cs =>
    match simpleEscape? e with
    | some c => push (.escaped c) (pieces multi cs)
    | none =>
      if multi ∧ (isBlank e ∨ e = '\n') then push .splice (push (.plain e) (pieces multi cs))
      else none
  | c :: cs =>
    if c = '\x22' then
      match ending? '\x22' multi cs with
      | some (quotes, rest) => some (quotes.map .plain, rest)
      | none => push (.plain c) (pieces multi cs)
    else if c ≠ '\\' ∧ mayStand multi c then push (.plain c) (pieces multi cs)
    else none

/-- Where the text stands after a backslash at the end of a line. -/
inductive Splice where
  | none
  | beforeBreak
  | afterBreak
  deriving DecidableEq, Repr

/-- The text that the pieces make up. -/
def join : Splice → List Piece → Option (List Char)
  | .beforeBreak, [] => none
  | _, [] => some []
  | .beforeBreak, .plain c :: ps =>
    if c = '\n' then join .afterBreak ps else if isBlank c then join .beforeBreak ps else none
  | .beforeBreak, _ => none
  | .afterBreak, .plain c :: ps =>
    if c = '\n' ∨ isBlank c then join .afterBreak ps else (join .none ps).map (c :: ·)
  | .none, .plain c :: ps => (join .none ps).map (c :: ·)
  | _, .escaped c :: ps => (join .none ps).map (c :: ·)
  | _, .splice :: ps => join .beforeBreak ps

/-- The characters between single quotes, and what follows. -/
def literal (multi : Bool) : List Char → Option (List Char × List Char)
  | [] => none
  | c :: cs =>
    if c = '\'' then
      match ending? '\'' multi cs with
      | some r => some r
      | none => push c (literal multi cs)
    else if mayStand multi c then push c (literal multi cs)
    else none

/-- A line break right behind three opening quotes is no text. -/
def skipBreak : List Char → List Char
  | '\n' :: cs => cs
  | cs => cs

/-- A string between double quotes, behind the opening ones. -/
def basic (multi : Bool) (cs : List Char) : Option (String × List Char) := do
  let (ps, rest) ← pieces multi cs
  some (String.ofList (← join .none ps), rest)

def verbatim (multi : Bool) (cs : List Char) : Option (String × List Char) :=
  (literal multi cs).map fun r => (String.ofList r.1, r.2)

/-- A string of any kind, with its quotes. -/
def string? : List Char → Option (String × List Char)
  | '\x22' :: '\x22' :: '\x22' :: cs => basic true (skipBreak cs)
  | '\x22' :: cs => basic false cs
  | '\'' :: '\'' :: '\'' :: cs => verbatim true (skipBreak cs)
  | '\'' :: cs => verbatim false cs
  | _ => none

/-- A quoted key. It stands on one line. -/
def quotedKey? : List Char → Option (String × List Char)
  | '\x22' :: cs => basic false cs
  | '\'' :: cs => verbatim false cs
  | _ => none

/-! ## Writing -/

/-- How a character is written between double quotes. With `multi` a line break stands for
itself. -/
def escape (multi : Bool) (c : Char) : List Char :=
  if c = '\x08' then ['\\', 'b']
  else if c = '\t' then ['\\', 't']
  else if c = '\n' then (if multi then ['\n'] else ['\\', 'n'])
  else if c = '\x0c' then ['\\', 'f']
  else if c = '\r' then ['\\', 'r']
  else if c = '\x22' then ['\\', '\x22']
  else if c = '\\' then ['\\', '\\']
  else if c.toNat < 0x20 ∨ c.toNat = 0x7F then
    ['\\', 'u', '0', '0', Text.upperHexDigit (c.toNat / 16), Text.upperHexDigit (c.toNat % 16)]
  else [c]

def threeDouble : List Char := ['\x22', '\x22', '\x22']

def threeSingle : List Char := ['\'', '\'', '\'']

/-- Single quotes save escapes, where they can hold the text. -/
def prefersSingle (cs : List Char) : Bool :=
  cs.contains '\\' && cs.all (mayStand true) && (Text.after? threeSingle cs).isNone &&
    cs.getLast? != some '\''

/-- A string with its quotes: single ones if they save escapes, and three if there is a line
break or a quote of that kind inside. -/
def quote (s : String) : List Char :=
  let cs := s.toList
  let multi := cs.contains '\n'
  if prefersSingle cs then
    if multi then threeSingle ++ ['\n'] ++ cs ++ threeSingle
    else if cs.contains '\'' then threeSingle ++ cs ++ threeSingle
    else ['\''] ++ cs ++ ['\'']
  else if multi then threeDouble ++ ['\n'] ++ cs.flatMap (escape true) ++ threeDouble
  else ['\x22'] ++ cs.flatMap (escape false) ++ ['\x22']

end Metronome.Toml
