-- Binding a thread to one core of the machine.

namespace Metronome

/-- A core that a thread is to be bound to. -/
inductive Core where
  | number (n : Nat)
  /-- The last core that the machine has. -/
  | last
  deriving DecidableEq, Repr

/-- A binding that holds, on a core and for a thread. -/
structure Lease where
  core : Nat
  thread : Nat
  deriving DecidableEq, Repr

inductive PinError where
  | coreBeyondSet (core : Nat)
  deriving DecidableEq, Repr

/-- How many cores a set of cores can name. -/
def coreSetSize : Nat := 1024

def PinError.message : PinError → String
  | .coreBeyondSet core =>
    "core " ++ toString core ++ " exceeds CPU set size " ++ toString coreSetSize

namespace Lease

/-- A lease that binds nothing. -/
def unbound (core : Nat) : Lease := ⟨core, 0⟩

/-- The core must have a place in the set of cores. -/
def bind (core thread : Nat) : Except PinError Lease :=
  if core < coreSetSize then .ok ⟨core, thread⟩ else .error (.coreBeyondSet core)

end Lease

/-- A machine's pins, counted. -/
structure Pins where
  /-- Every attempt fails. -/
  refused : Bool := false
  /-- The cores asked for, oldest first. -/
  cores : List Core := []
  releases : Nat := 0
  deriving DecidableEq, Repr

namespace Pins

def attempts (p : Pins) : Nat := p.cores.length

/-- Tries to pin, and says whether it worked. -/
def attempt (p : Pins) (core : Core) : Pins × Bool :=
  ({ p with cores := p.cores ++ [core] }, !p.refused)

def release (p : Pins) : Pins := { p with releases := p.releases + 1 }

end Pins

end Metronome
