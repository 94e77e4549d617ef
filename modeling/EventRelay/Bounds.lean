/-!
# Powers and bounds

Powers of two bound the numbers of a width, powers of ten shift decimals. Sums and differences that
leave their width are an `Overflow`.
-/

namespace EventRelay

def pow2 (bits : Nat) : Nat := Nat.pow 2 bits

def pow10 (digits : Nat) : Nat := Nat.pow 10 digits

def leastInt64 : Int := -9223372036854775808

def greatestInt64 : Int := 9223372036854775807

def leastInt32 : Int := -2147483648

def greatestInt32 : Int := 2147483647

def greatestNat32 : Nat := 4294967295

/-! ### Overflow -/

/-- An operation whose result does not fit into the width of its numbers. -/
inductive Overflow where
  | add
  | subtract
  | multiply
  deriving DecidableEq, Repr

def Overflow.message : Overflow → String
  | .add => "attempt to add with overflow"
  | .subtract => "attempt to subtract with overflow"
  | .multiply => "attempt to multiply with overflow"

/-- A result of 64 bits with a sign, or the overflow of the operation that gave it. -/
def within64 (overflow : Overflow) (result : Int) : Except Overflow Int :=
  if leastInt64 ≤ result ∧ result ≤ greatestInt64 then .ok result else .error overflow

/-- A count of 32 bits raised by one. -/
def next32 (n : Nat) : Except Overflow Nat :=
  if n < greatestNat32 then .ok (n + 1) else .error .add

end EventRelay
