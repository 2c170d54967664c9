-- Numbers that live in 64 bits. Sums, differences and products are exact
-- integers here, and a result that leaves its range is a fault.

namespace Metronome

/-- A computation that cannot go on. -/
inductive Fault where
  | sumTooLarge
  | differenceTooLarge
  | productTooLarge
  | magnitudeTooLarge
  | emptyInterval
  | pauseTooLong
  | threadNameHasNul
  deriving DecidableEq, Repr

/-- The text that a fault leaves behind when a clock catches it. -/
def Fault.message : Fault → String
  | .sumTooLarge => "attempt to add with overflow"
  | .differenceTooLarge => "attempt to subtract with overflow"
  | .productTooLarge => "attempt to multiply with overflow"
  | .magnitudeTooLarge => "attempt to negate with overflow"
  | .emptyInterval => "time lapse must cover a non-empty interval"
  | .pauseTooLong => "cannot convert float seconds to Duration: value is either too big or NaN"
  | .threadNameHasNul => "thread name may not contain interior null bytes"

/-! ## Signed numbers -/

namespace Signed

def least : Int := -9223372036854775808

def greatest : Int := 9223372036854775807

/-- The number has a signed 64-bit form. -/
def Fits (n : Int) : Prop := least ≤ n ∧ n ≤ greatest

instance (n : Int) : Decidable (Fits n) := inferInstanceAs (Decidable (_ ∧ _))

/-- The number itself, or the fault when it does not fit. -/
def keep (n : Int) (f : Fault) : Except Fault Int :=
  if Fits n then .ok n else .error f

def add (a b : Int) : Except Fault Int := keep (a + b) .sumTooLarge

def sub (a b : Int) : Except Fault Int := keep (a - b) .differenceTooLarge

def mul (a b : Int) : Except Fault Int := keep (a * b) .productTooLarge

/-- The distance from zero. Only the least number has none. -/
def magnitude (a : Int) : Except Fault Int := keep a.natAbs .magnitudeTooLarge

theorem keep_eq_ok {n m : Int} {f : Fault} : keep n f = .ok m ↔ Fits n ∧ m = n := by
  unfold keep
  split <;> simp_all [eq_comm]

theorem keep_of_fits {n : Int} {f : Fault} (h : Fits n) : keep n f = .ok n := by
  simp [keep, h]

/-- The signed number that has the same low 64 bits. -/
def wrap (n : Int) : Int := n.bmod 18446744073709551616

end Signed

/-! ## Unsigned numbers -/

namespace Unsigned

def greatest : Nat := 18446744073709551615

/-- The number has an unsigned 64-bit form. -/
def Fits (n : Nat) : Prop := n ≤ greatest

instance (n : Nat) : Decidable (Fits n) := inferInstanceAs (Decidable (_ ≤ _))

def add (a b : Nat) : Except Fault Nat :=
  if Fits (a + b) then .ok (a + b) else .error .sumTooLarge

/-- The sum of a list, from left to right. -/
def sum (l : List Nat) : Except Fault Nat := l.foldlM add 0

/-- A counter that goes round. -/
def wrap (n : Nat) : Nat := n % 18446744073709551616

/-- The nearest number that fits. -/
def clamp (n : Nat) : Nat := min n greatest

end Unsigned

end Metronome
