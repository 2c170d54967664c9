-- Units of simulated time, and durations in whole nanoseconds.
import Metronome.Range

namespace Metronome

/-! ## Units -/

inductive TimeUnit where
  | nanoseconds
  | microseconds
  | milliseconds
  | seconds
  | minutes
  | hours
  deriving DecidableEq, Repr

namespace TimeUnit

def all : List TimeUnit :=
  [.nanoseconds, .microseconds, .milliseconds, .seconds, .minutes, .hours]

/-- The unit that holds when none is chosen. -/
def standard : TimeUnit := .milliseconds

instance : Inhabited TimeUnit := ⟨standard⟩

/-- How many nanoseconds one unit holds. -/
def nanos : TimeUnit → Nat
  | .nanoseconds => 1
  | .microseconds => 1000
  | .milliseconds => 1000000
  | .seconds => 1000000000
  | .minutes => 60000000000
  | .hours => 3600000000000

def symbol : TimeUnit → String
  | .nanoseconds => "ns"
  | .microseconds => "us"
  | .milliseconds => "ms"
  | .seconds => "s"
  | .minutes => "min"
  | .hours => "h"

/-- The name that settings files use. -/
def name : TimeUnit → String
  | .nanoseconds => "nanoseconds"
  | .microseconds => "microseconds"
  | .milliseconds => "milliseconds"
  | .seconds => "seconds"
  | .minutes => "minutes"
  | .hours => "hours"

def ofName? (s : String) : Option TimeUnit := all.find? (fun u => u.name == s)

theorem ofName?_name (u : TimeUnit) : ofName? u.name = some u := by
  cases u <;> decide

/-- An amount of this unit in nanoseconds. A negative amount has none, nor
has one beyond the unsigned range. -/
def toNanos? (u : TimeUnit) (amount : Int) : Option Nat :=
  if amount < 0 then none
  else if Unsigned.Fits (amount.toNat * u.nanos) then some (amount.toNat * u.nanos)
  else none

end TimeUnit

/-! ## Durations -/

/-- A length of real time. -/
structure Duration where
  nanos : Nat
  deriving DecidableEq, Repr

namespace Duration

def perSecond : Nat := 1000000000

def ofMillis (n : Nat) : Duration := ⟨n * 1000000⟩

def ofParts (seconds nanos : Nat) : Duration := ⟨seconds * perSecond + nanos⟩

/-- The whole seconds. -/
def seconds (d : Duration) : Nat := d.nanos / perSecond

/-- The nanoseconds behind the whole seconds. -/
def subsec (d : Duration) : Nat := d.nanos % perSecond

/-- The nanoseconds as an unsigned number. A longer duration counts as the greatest. -/
def clamped (d : Duration) : Nat := Unsigned.clamp d.nanos

end Duration

def TimeUnit.toDuration? (u : TimeUnit) (amount : Int) : Option Duration :=
  (u.toNanos? amount).map Duration.mk

end Metronome
