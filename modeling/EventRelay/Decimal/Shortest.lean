import EventRelay.Bounds
/-!
# The shortest decimal that reads back

A double stands for every real number that rounds to it. Of the decimals in that interval the
written one lies on the coarsest grid of powers of ten that meets the interval, and is the nearest
to the double among the points of that grid. Where two points are equally near, a `Tie` says which
one is taken. Everything is exact arithmetic on natural numbers.
-/

namespace EventRelay.Decimal

/-- A positive finite double `mantissa · 2 ^ exponent`. The gap below it is half the gap above it
when it is `narrowBelow`, that is, when it is the least double of its binade. -/
structure Binary where
  mantissa : Nat
  exponent : Int
  narrowBelow : Bool
  deriving DecidableEq, Repr

/-- The magnitude of a double, from its 64 bits; `none` for zeros, infinities and what is no
number. -/
def Binary.ofBits (bits : UInt64) : Option Binary :=
  let fraction : Nat := bits.toNat % pow2 52
  let biased : Nat := bits.toNat / pow2 52 % pow2 11
  if biased = 2047 then none
  else if biased = 0 then
    if fraction = 0 then none else some ⟨fraction, -1074, false⟩
  else some ⟨pow2 52 + fraction, (biased : Int) - 1075, fraction = 0 && 1 < biased⟩

/-- A decimal `significand · 10 ^ exponent`. -/
structure Digits where
  significand : Nat
  exponent : Int
  deriving DecidableEq, Repr

/-- `significand · 10 ^ exponent` in quarters of `2 ^ q`, over a common denominator: a pair of
natural numbers whose order is that of the two reals. -/
def scaled (decimal : Digits) (quarters : Nat) (q : Int) : Nat × Nat :=
  (decimal.significand * pow10 decimal.exponent.toNat * pow2 (2 - q).toNat,
    quarters * pow2 (q - 2).toNat * pow10 (-decimal.exponent).toNat)

/-- The lower and upper end of the interval of reals that round to a double, in quarters. -/
def Binary.ends (b : Binary) : Nat × Nat :=
  (4 * b.mantissa - (if b.narrowBelow then 1 else 2), 4 * b.mantissa + 2)

/-- Whether a decimal rounds to the double. The ends of the interval belong to it exactly when the
mantissa is even. -/
def Binary.reads (b : Binary) (decimal : Digits) : Bool :=
  let (low, high) := b.ends
  let (d, l) := scaled decimal low b.exponent
  let (d', h) := scaled decimal high b.exponent
  if b.mantissa % 2 = 0 then l ≤ d && d' ≤ h else l < d && d' < h

/-- Twice the distance of a decimal from the double, on a scale that depends on the decimal's
exponent only. -/
def Binary.distance (b : Binary) (decimal : Digits) : Nat :=
  let (d, v) := scaled decimal (4 * b.mantissa) b.exponent
  (d - v) + (v - d)

/-- The point of the grid `10 ^ exponent` just below the double. -/
def Binary.floor (b : Binary) (exponent : Int) : Digits :=
  let (unit, v) := scaled ⟨1, exponent⟩ (4 * b.mantissa) b.exponent
  ⟨v / unit, exponent⟩

/-- Which of two neighbours on a grid is taken when they are equally near. -/
inductive Tie where
  | toEven
  | up
  deriving DecidableEq, Repr

/-- The point of a grid that rounds to the double, if there is one: of the two neighbours the
nearer. -/
def Binary.onGrid (b : Binary) (tie : Tie) (exponent : Int) : Option Digits :=
  let below := b.floor exponent
  let above : Digits := ⟨below.significand + 1, exponent⟩
  match b.reads below, b.reads above with
  | false, false => none
  | true, false => some below
  | false, true => some above
  | true, true =>
    if b.distance below < b.distance above then some below
    else if b.distance above < b.distance below then some above
    else if tie = .toEven ∧ below.significand % 2 = 0 then some below else some above

/-- The first grid with a point, from the given one downwards through `steps` finer ones. -/
def Binary.firstGrid (b : Binary) (tie : Tie) : (steps : Nat) → (exponent : Int) → Digits
  | 0, exponent => b.floor exponent
  | steps + 1, exponent =>
    match b.onGrid tie exponent with
    | some digits => digits
    | none => b.firstGrid tie steps (exponent - 1)

/-- The shortest decimal that reads back as the double. A double has at most seventeen digits, so
twenty-five grids from one coarser than the double itself are enough. -/
def Binary.shortest (b : Binary) (tie : Tie) : Digits :=
  b.firstGrid tie 25 (((b.mantissa.log2 : Int) + 1 + b.exponent) * 30103 / 100000 + 1)

example : (Binary.ofBits 0x3FB999999999999A).map (·.shortest .toEven) = some ⟨1, -1⟩ := by
  decide +kernel
example : (Binary.ofBits 1).map (·.shortest .toEven) = some ⟨5, -324⟩ := by decide +kernel
example : (⟨pow2 52 + 2, -3, false⟩ : Binary).shortest .toEven = ⟨5629499534213122, -1⟩ := by
  decide +kernel
example : (⟨pow2 52 + 2, -3, false⟩ : Binary).shortest .up = ⟨5629499534213123, -1⟩ := by
  decide +kernel

end EventRelay.Decimal
