-- The files that have stood at the path of a log. Who has opened one keeps
-- it, whatever stands at the path later.
import Metronome.Text.Bytes

namespace Metronome.Pause

open Text (Bytes)

structure Disk where
  files : List Bytes := []
  /-- The number of the file that stands at the path now. -/
  atPath : Option Nat := none
  deriving DecidableEq, Repr

namespace Disk

def content (d : Disk) (file : Nat) : Bytes := (d.files[file]?).getD []

/-- A new file comes to stand at the path. -/
def replace (d : Disk) (bs : Bytes) : Disk :=
  { files := d.files ++ [bs], atPath := some d.files.length }

/-- The file at the path changes in place. -/
def change (d : Disk) (f : Bytes → Bytes) : Option Disk :=
  d.atPath.map fun file => { d with files := d.files.modify file f }

/-- Adds at the end, and creates a missing file. -/
def append (d : Disk) (bs : Bytes) : Disk := (d.change (· ++ bs)).getD (d.replace bs)

/-- Writes anew in place, and creates a missing file. -/
def write (d : Disk) (bs : Bytes) : Disk := (d.change fun _ => bs).getD (d.replace bs)

/-- Cuts the file at the path to so many bytes, or fills it up with zeros. -/
def resize? (d : Disk) (size : Nat) : Option Disk :=
  d.change fun bs => bs.take size ++ List.replicate (size - bs.length) 0

def remove? (d : Disk) : Option Disk := d.atPath.map fun _ => { d with atPath := none }

def ofContent (bs : Bytes) : Disk := replace {} bs

end Disk

end Metronome.Pause
