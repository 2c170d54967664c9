-- Lifecycle events and those who watch them. A watcher sees the events it
-- wants, oldest first, and is struck off once it has let go.

namespace Metronome

inductive Event where
  | started
  | stopped
  | switchToRealTime
  | switchToSimTime
  deriving DecidableEq, Repr

namespace Event

def all : List Event := [.started, .stopped, .switchToRealTime, .switchToSimTime]

def name : Event → String
  | .started => "Started"
  | .stopped => "Stopped"
  | .switchToRealTime => "SwitchToRealTime"
  | .switchToSimTime => "SwitchToSimTime"

def ofName? (s : String) : Option Event := all.find? (fun e => e.name == s)

theorem ofName?_name (e : Event) : ofName? e.name = some e := by
  cases e <;> decide

end Event

/-- An event and the simulated time at which it was published. -/
structure Notice where
  event : Event
  time : Int
  deriving DecidableEq, Repr

/-- One watcher. -/
structure Subscription where
  /-- The events that it wants, or all of them. -/
  wanted : Option (List Event) := none
  /-- What it has not taken yet, oldest first. -/
  queue : List Notice := []
  /-- The watcher still holds its end. -/
  held : Bool := true
  /-- The feed still knows it. -/
  listed : Bool := true
  deriving DecidableEq, Repr

namespace Subscription

def wants (s : Subscription) (e : Event) : Bool :=
  match s.wanted with
  | none => true
  | some events => events.contains e

/-- A watcher that let go is struck off by the first event that it would have seen. -/
def deliver (s : Subscription) (n : Notice) : Subscription :=
  if s.listed && s.wants n.event then
    if s.held then { s with queue := s.queue ++ [n] } else { s with listed := false }
  else s

end Subscription

/-- Every subscription ever made, by its number. -/
structure Feed where
  subscriptions : List Subscription := []
  deriving DecidableEq, Repr

namespace Feed

/-- Adds a watcher and gives its number. -/
def subscribe (f : Feed) (wanted : Option (List Event)) : Feed × Nat :=
  (⟨f.subscriptions ++ [{ wanted := wanted }]⟩, f.subscriptions.length)

def publish (f : Feed) (n : Notice) : Feed :=
  ⟨f.subscriptions.map (fun s => s.deliver n)⟩

/-- Takes all that waits for one watcher. One that let go has nothing. -/
def drain (f : Feed) (i : Nat) : Feed × Option (List Notice) :=
  match f.subscriptions[i]? with
  | some s =>
    if s.held then (⟨f.subscriptions.set i { s with queue := [] }⟩, some s.queue) else (f, none)
  | none => (f, none)

/-- The watcher lets go, and what it has not taken is lost. -/
def drop (f : Feed) (i : Nat) : Feed :=
  match f.subscriptions[i]? with
  | some s => ⟨f.subscriptions.set i { s with held := false, queue := [] }⟩
  | none => f

/-- How many watchers the feed still knows. -/
def size (f : Feed) : Nat := f.subscriptions.countP (fun s => s.listed)

end Feed

end Metronome
