-- Settings as they stand in a file.
import Metronome.Stored
import Metronome.Text.Bytes
import Metronome.Toml.Printer
import Metronome.Toml.Reader

namespace Metronome

/-- Why settings cannot be had from a file, or written to one. -/
inductive FileProblem where
  /-- There is no such file, it cannot be written to, or it holds no text. -/
  | unreadable
  | noSettings
  /-- A number has no written form. -/
  | unwritable
  deriving DecidableEq, Repr

namespace Settings

def ofText? (text : String) : Option Settings := (Toml.read? text).bind (ofData? .toml)

/-- The text of a settings file, unless a number is too large for it. -/
def toText? (s : Settings) : Option String := Toml.print? s.toData

/-- The settings in a file, from what the file holds. Nothing is held by a file that is not
there. -/
def load (content : Option Text.Bytes) : Except FileProblem Settings :=
  match content.bind Text.ofBytes? with
  | none => .error .unreadable
  | some text => (ofText? text).elim (.error .noSettings) .ok

/-- Writes the settings to a file: how that ends, and what the file holds afterwards. The text is
made before the file is opened. -/
def save (s : Settings) (writable : Bool) (content : Option Text.Bytes) :
    Except FileProblem Unit × Option Text.Bytes :=
  match s.toText? with
  | none => (.error .unwritable, content)
  | some text =>
    if writable then (.ok (), some (Text.toBytes text)) else (.error .unreadable, content)

end Settings

end Metronome
