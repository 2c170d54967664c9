-- The listeners of a clock, in the order in which they came. A listener is
-- known by its name and stands in the roster at most once.

namespace Metronome

abbrev Listener := String

/-- Who is called on every tick. -/
structure Roster where
  names : List Listener := []
  deriving DecidableEq, Repr

namespace Roster

def size (r : Roster) : Nat := r.names.length

/-- The newcomer goes to the end. A listener that is already there is refused. -/
def register? (r : Roster) (x : Listener) : Option Roster :=
  if x ∈ r.names then none else some ⟨r.names ++ [x]⟩

/-- All others keep their order. A listener that is not there is refused. -/
def unregister? (r : Roster) (x : Listener) : Option Roster :=
  if x ∈ r.names then some ⟨r.names.erase x⟩ else none

end Roster

end Metronome
