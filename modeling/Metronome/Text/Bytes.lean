-- Text as it stands in a file: bytes that are UTF-8, or that are no text.

namespace Metronome.Text

abbrev Bytes := List UInt8

def newline : UInt8 := 10

/-- The text that the bytes encode, if they are UTF-8. -/
def ofBytes? (bs : Bytes) : Option String := String.fromUTF8? ⟨bs.toArray⟩

def toBytes (s : String) : Bytes := s.toUTF8.data.toList

/-- Puts a byte in front of the first line. -/
def consLine (b : UInt8) : List Bytes → List Bytes
  | line :: lines => if b = newline then [b] :: line :: lines else (b :: line) :: lines
  | [] => [[b]]

/-- The lines, each with its newline. Only the last one may lack it, and none is empty. -/
def lines : Bytes → List Bytes
  | [] => []
  | b :: bs => consLine b (lines bs)

end Metronome.Text
