-- Listeners that follow a script. A script says what its listener does at
-- which tick, and a journal keeps what came of it, so that a clock can be
-- rehearsed from outside.
import Metronome.Clock.Program
import Metronome.TickLog

namespace Metronome

namespace Script

/-! ## Scripts -/

inductive Deed where
  | call (c : Call)
  /-- Consumes half of what is left. -/
  | consumeHalf
  | covers (time : Int)
  | fail (text : String)
  /-- Gives up, naming the tick. -/
  | panic (text : String)
  | panicPlain
  /-- Gives up without a text. -/
  | panicOpaque
  | logCounts (log : Listener)
  | logReset (log : Listener)
  /-- A deed that no one knows. -/
  | unknown
  deriving DecidableEq, Repr

/-- A deed, and whether its failure fails the callback. -/
structure Action where
  deed : Deed
  strict : Bool
  deriving DecidableEq, Repr

structure Rule where
  phase : Phase
  /-- The ticks at which the rule applies. -/
  ticks : Option (List Nat)
  /-- The tick from which on it applies. -/
  since : Option Nat
  actions : List Action
  deriving DecidableEq, Repr

/-- A rule without ticks applies to all of them. -/
def Rule.applies (r : Rule) (phase : Phase) (n : Nat) : Bool :=
  decide (r.phase = phase) &&
    match r.ticks, r.since with
    | none, none => true
    | some l, none => l.contains n
    | none, some m => decide (m ≤ n)
    | some l, some m => l.contains n || decide (m ≤ n)

/-- A listener with a script. -/
structure Part where
  name : Listener
  rules : List Rule
  /-- Callbacks without a rule stay out of the journal. -/
  quiet : Bool
  /-- How many ticks it has seen. -/
  count : Nat := 0
  deriving DecidableEq, Repr

/-! ## The journal -/

inductive Result where
  | answer (a : Answer)
  | stats (s : TickLog.Stats)
  | failed (text : String)
  deriving DecidableEq, Repr

/-- What happened in one callback. -/
structure Entry where
  visit : Visit
  count : Nat
  /-- What its actions came to, in order. -/
  results : List Result := []
  /-- What was left of the budget at its end. -/
  left : Int
  deriving DecidableEq, Repr

/-- All that the listeners of a rehearsal know. -/
structure World where
  parts : List Part := []
  logs : List (Listener × TickLog) := []
  /-- How long the dispatches take that a log times. -/
  durations : Listener → Nat → UInt64 := fun _ _ => 1
  /-- Newest first. -/
  journal : List Entry := []

namespace World

def log? (w : World) (x : Listener) : Option TickLog := (w.logs.find? fun l => l.1 == x).map (·.2)

def changeLog (w : World) (x : Listener) (f : TickLog → TickLog) : World :=
  { w with logs := w.logs.map fun l => if l.1 == x then (l.1, f l.2) else l }

def part? (w : World) (x : Listener) : Option Part := w.parts.find? fun p => p.name == x

/-- A listener sees one more tick. -/
def countTick (w : World) (x : Listener) : World :=
  { w with
    parts := w.parts.map fun p => if p.name == x then { p with count := p.count + 1 } else p }

def write (w : World) (e : Entry) : World := { w with journal := e :: w.journal }

/-- The journal so far, oldest first, and a world with an empty one. -/
def takeJournal (w : World) : List Entry × World := (w.journal.reverse, { w with journal := [] })

end World

/-! ## Behaviour -/

def Entry.add (e : Entry) (r : Result) : Entry := { e with results := e.results ++ [r] }

/-- Writes the entry into the journal and ends the callback. -/
def close (w : World) (e : Entry) (v : Verdict) : Program World :=
  .ask .budget fun a =>
    match a with
    | .budget b => .finish (w.write { e with left := b.left }) v
    | _ => .finish (w.write e) v

/-- What an answer means for the callback. A fault ends it, and so does the failure of
a strict action. -/
def settle (w : World) (e : Entry) (strict : Bool) (a : Answer) (next : Entry → Program World) :
    Program World :=
  match a with
  | .fault f => close w e (.panicked f.message)
  | a =>
    match strict, a.errorText? with
    | true, some text => close w (e.add (.answer a)) (.failed text)
    | _, _ => next (e.add (.answer a))

/-- Performs the actions in turn. -/
def perform (w : World) (e : Entry) : List Action → Program World
  | [] => close w e .fine
  | ⟨deed, strict⟩ :: rest =>
    match deed with
    | .call c => .ask c fun a => settle w e strict a fun e => perform w e rest
    | .consumeHalf =>
      .ask .budget fun a =>
        match a with
        | .budget b =>
          .ask (.consume b.half) fun a => settle w e strict a fun e => perform w e rest
        | a => settle w e strict a fun e => perform w e rest
    | .covers t =>
      .ask .budget fun a =>
        match a with
        | .budget b => perform w (e.add (.answer (.flag (b.covers t)))) rest
        | a => perform w (e.add (.answer a)) rest
    | .fail text => close w (e.add (.failed text)) (.failed text)
    | .panic text =>
      close w e (.panicked (text ++ " gave up at tick " ++ toString e.count))
    | .panicPlain => close w e (.panicked "static panic payload")
    | .panicOpaque => close w e (.panicked "non-string panic payload")
    | .logCounts x =>
      match (w.log? x).map TickLog.stats with
      | some (.ok s) => perform w (e.add (.stats s)) rest
      | some (.error f) => close w e (.panicked f.message)
      | none => perform w (e.add (.answer .unavailable)) rest
    | .logReset x =>
      match w.log? x with
      | some _ => perform (w.changeLog x TickLog.reset) (e.add (.answer .done)) rest
      | none => perform w (e.add (.answer .unavailable)) rest
    | .unknown => perform w (e.add (.answer .unavailable)) rest

/-- A scripted listener counts its ticks and follows every rule that applies. -/
def play (p : Part) (v : Visit) (w : World) : Program World :=
  let w := if v.phase = .tick then w.countTick p.name else w
  let n := if v.phase = .tick then p.count + 1 else p.count
  let rules := p.rules.filter fun r => r.applies v.phase n
  if p.quiet ∧ rules = [] then .finish w .fine
  else perform w { visit := v, count := n, left := v.budget.left } (rules.flatMap (·.actions))

/-- A tick log times a tick from its first callback to its second. -/
def keepTime (v : Visit) (w : World) : Program World :=
  .finish (w.changeLog v.listener fun log =>
    match v.phase with
    | .tick => log.begin
    | .after => log.finishNext (w.durations v.listener)) .fine

/-- What every listener of a rehearsal does. -/
def behave : Behaviour World := fun v w =>
  match w.part? v.listener with
  | some p => play p v w
  | none => keepTime v w

end Script

end Metronome
