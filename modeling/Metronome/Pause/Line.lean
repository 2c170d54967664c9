-- The pauses that another program's log reports. Two kinds of line carry
-- one: a safepoint line gives seconds after its marker, and a line about a
-- pause ends with milliseconds. Every other line carries none.
import Metronome.TimeUnit
import Metronome.Text.Blank
import Metronome.Text.Numeral

namespace Metronome.Pause

def safepointMarker : List Char :=
  "Total time for which application threads were stopped:".toList

def pauseMarker : List Char := "Pause".toList

/-- Seconds as a duration, rounded to the nearest nanosecond. A tie goes to the even one. -/
def ofSeconds (seconds : Rat) : Except Fault Duration :=
  if seconds < Binary64.twoPow 64 then
    .ok ⟨(Binary64.roundEven (seconds * (Duration.perSecond : Rat))).toNat⟩
  else .error .pauseTooLong

/-- The finite number that a word writes, unless it is below zero. -/
def amount? (word : List Char) : Option Rat :=
  match (Text.Numeral.read? word).bind Text.Numeral.value? with
  | some x => if x < 0 then none else some x
  | none => none

/-- The first word behind the marker is a number of seconds. -/
def ofSafepoint (rest : List Char) : Except Fault (Option Duration) :=
  match amount? (Text.firstWord rest) with
  | some seconds => (ofSeconds seconds).map some
  | none => .ok none

/-- The last word is a number of milliseconds with its unit. -/
def ofPauseLine (line : List Char) : Except Fault (Option Duration) :=
  match (Text.dropEnding? "ms".toList (Text.lastWord line)).bind amount? with
  | some millis => (ofSeconds (Binary64.div millis 1000)).map some
  | none => .ok none

/-- The pause that a line carries. The safepoint marker decides before the other. -/
def ofLine (line : String) : Except Fault (Option Duration) :=
  let cs := Text.trim line.toList
  match Text.after? safepointMarker cs with
  | some rest => ofSafepoint rest
  | none =>
    match Text.after? pauseMarker cs with
    | some _ => ofPauseLine cs
    | none => .ok none

end Metronome.Pause
