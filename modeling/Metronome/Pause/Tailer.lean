-- A tailer reads the pauses that a log reports while the log grows. It
-- counts the bytes that it has served: a log that is shorter than that was
-- cut, and the tailer begins anew.
import Metronome.Pause.Disk
import Metronome.Pause.Line

namespace Metronome.Pause

open Text (Bytes)

/-- Why a read gives no pauses. -/
inductive ReadProblem where
  | notFound
  | invalidData
  | fault (f : Fault)
  deriving DecidableEq, Repr

def ReadProblem.name : ReadProblem → String
  | .notFound => "NotFound"
  | .invalidData => "InvalidData"
  | .fault _ => "Other"

structure Tailer where
  /-- The file that it has open. -/
  file : Nat
  /-- How much of the file it has taken into its buffer. -/
  offset : Nat
  /-- What it has taken and not served. -/
  buffer : Bytes := []
  /-- How many bytes it has served. -/
  position : Nat
  /-- A line whose end is still to come. -/
  pending : String := ""
  deriving DecidableEq, Repr

namespace Tailer

/-- A file is taken in blocks of this size. -/
def blockSize : Nat := 8192

/-- Opens a file at its start. -/
def fromStart (file : Nat) : Tailer := { file, offset := 0, position := 0 }

/-- Opens a file at its end. -/
def fromEnd (file size : Nat) : Tailer := { file, offset := size, position := size }

/-- What it has not served of a file with that content. -/
def ahead (content : Bytes) (t : Tailer) : Bytes := t.buffer ++ content.drop t.offset

/-- Serves so many bytes of a file with that content. Blocks are taken as they are needed. -/
def serve (content : Bytes) (count : Nat) (t : Tailer) : Tailer :=
  let blocks := (count - t.buffer.length + (blockSize - 1)) / blockSize
  let taken := (content.drop t.offset).take (blocks * blockSize)
  { t with offset := t.offset + taken.length, buffer := (t.buffer ++ taken).drop count }

/-- Reads lines in turn. A line without its end is kept, and a line that is no text ends the
read: its bytes are lost and do not count. -/
def readLines (content : Bytes) :
    List Bytes → Tailer → List Duration → Tailer × Except ReadProblem (List Duration)
  | [], t, found => (t, .ok found)
  | line :: rest, t, found =>
    let t := t.serve content line.length
    match Text.ofBytes? line with
    | none => (t, .error .invalidData)
    | some text =>
      let t := { t with position := t.position + line.length, pending := t.pending ++ text }
      if line.getLast? = some Text.newline then
        match ofLine t.pending with
        | .error f => (t, .error (.fault f))
        | .ok pause => readLines content rest { t with pending := "" } (found ++ pause.toList)
      else (t, .ok found)

/-- The tailer that reads on. It begins anew with the file at the path when that is shorter than
what was served. -/
def reopen (file size : Nat) (t : Tailer) : Tailer :=
  if size < t.position then fromStart file else t

/-- Reads every line that is complete by now. -/
def read (d : Disk) (t : Tailer) : Tailer × Except ReadProblem (List Duration) :=
  match d.atPath with
  | none => (t, .error .notFound)
  | some file =>
    let t := t.reopen file (d.content file).length
    let content := d.content t.file
    readLines content (Text.lines (t.ahead content)) t []

end Tailer

/-- Opens the log at its start or at its end. -/
def Disk.tailer? (d : Disk) (fromStart : Bool) : Option Tailer :=
  d.atPath.map fun file =>
    if fromStart then .fromStart file else .fromEnd file (d.content file).length

end Metronome.Pause
