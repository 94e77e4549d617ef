import EventRelay.Json.Fault
import EventRelay.Json.Value
/-!
# Numerals

Numbers as documents spell them. A numeral without point and exponent is a whole number as long as
it fits into 64 bits; every other one is a double. A double is made from at most the first digits
that fit into 64 bits: their value as a double is multiplied or divided by a power of ten, in steps
where the power is beyond the range of doubles.
-/

namespace EventRelay.Json

def isDigit (b : UInt8) : Bool :=
  48 ≤ b && b ≤ 57

def digitValue (b : UInt8) : Nat :=
  b.toNat - 48

/-! ### The value of a numeral -/

/-- Appends digits to a significand while the result stays below `2 ^ 64`; the digits that do not
fit any more are left over. -/
def absorb : (significand : Nat) → (digits : Bytes) → Nat × Bytes
  | significand, [] => (significand, [])
  | significand, d :: rest =>
    let next := significand * 10 + digitValue d
    if next < pow2 64 then absorb next rest else (significand, d :: rest)

def powerOfTen (n : Nat) : Float :=
  Float.ofScientific 1 false n

/-- A double times a power of ten; `none` when the result is infinite. Powers below the range of
doubles are applied in steps of `10 ^ 308`, and a zero stops them. -/
def scaleDown : (steps : Nat) → Float → (exponent : Nat) → Float
  | 0, x, _ => x
  | steps + 1, x, exponent =>
    if exponent ≤ 308 then x / powerOfTen exponent
    else if x == 0.0 then x
    else scaleDown steps (x / powerOfTen 308) (exponent - 308)

/-- The magnitude `significand · 10 ^ exponent`, or `none` when it is out of range. -/
def magnitude? (significand : Nat) (exponent : Int) : Option Float :=
  let x := significand.toUInt64.toFloat
  if exponent < 0 then some (scaleDown 4 x exponent.natAbs)
  else if exponent ≤ 308 then
    let y := x * powerOfTen exponent.toNat
    if y.isInf then none else some y
  else if x == 0.0 then some x else none

/-- The parts of a numeral as it is spelled: sign, digits before the point, digits after it if
there is one, and the exponent if there is one. -/
structure Numeral where
  negative : Bool
  whole : Bytes
  fraction? : Option Bytes
  exponent? : Option Int
  deriving Repr

def signed (negative : Bool) (x : Float) : Json :=
  .float (if negative then -x else x)

/-- The exponents of doubles are kept within 32 bits. -/
def clampExponent (e : Int) : Int :=
  max leastInt32 (min greatestInt32 e)

/-- The value of a numeral, or `none` when it is out of range. -/
def Numeral.value? (n : Numeral) : Option Json :=
  let (significand, left) := absorb 0 n.whole
  match n.fraction?, n.exponent?, left with
  | none, none, [] =>
    if !n.negative then some (.integer significand)
    else if significand = 0 ∨ pow2 63 < significand then
      some (signed true significand.toUInt64.toFloat)
    else some (.integer (-significand))
  | fraction?, exponent?, left =>
    let fraction := fraction?.getD []
    let (significand, unused) := absorb significand fraction
    let shift : Int := left.length - (fraction.length - unused.length : Nat)
    let exponent := clampExponent (shift + exponent?.getD 0)
    (magnitude? significand exponent).map (signed n.negative)

/-! ### Reading a numeral -/

/-- The digits at the front, and what follows them. -/
def spanDigits (bs : Bytes) : Bytes × Bytes :=
  (bs.takeWhile isDigit, bs.dropWhile isDigit)

/-- The digits before the point: one zero, or digits that do not start with zero. -/
def readWhole : Bytes → Except Fault (Bytes × Bytes)
  | [] => .error (.before .eofValue [])
  | d :: rest =>
    if d = 48 then
      match rest with
      | e :: _ => if isDigit e then .error (.peek .invalidNumber rest) else .ok ([d], rest)
      | [] => .ok ([d], rest)
    else if isDigit d then .ok (spanDigits (d :: rest))
    else .error (.before .invalidNumber rest)

/-- The point and the digits after it, of which there must be one. -/
def readFraction : Bytes → Except Fault (Option Bytes × Bytes)
  | [] => .ok (none, [])
  | b :: rest =>
    if b = 46 then
      match spanDigits rest with
      | ([], []) => .error (.before .eofValue [])
      | ([], more) => .error (.peek .invalidNumber more)
      | (digits, more) => .ok (some digits, more)
    else .ok (none, b :: rest)

/-- Appends digits to an exponent. One that does not fit into 31 bits is given back as `none`,
together with what follows the digit that was too much. -/
def absorbExponent : (exponent : Nat) → Bytes → Option Nat × Bytes
  | exponent, [] => (some exponent, [])
  | exponent, d :: rest =>
    if isDigit d then
      let next := exponent * 10 + digitValue d
      if next < pow2 31 then absorbExponent next rest else (none, rest)
    else (some exponent, d :: rest)

/-- The letter, sign and digits of an exponent. An exponent beyond all bounds counts as the
greatest one; with a positive sign it puts a number other than zero out of range at once. -/
def readExponent (isZero : Bool) : Bytes → Except Fault (Option Int × Bytes)
  | [] => .ok (none, [])
  | b :: rest =>
    if b = 101 || b = 69 then
      let (negative, rest) := match rest with
        | s :: more => if s = 43 then (false, more) else if s = 45 then (true, more) else (false, rest)
        | [] => (false, [])
      match rest with
      | [] => .error (.before .eofValue [])
      | d :: more =>
        if !isDigit d then .error (.before .invalidNumber more)
        else match absorbExponent 0 (d :: more) with
          | (some e, more) => .ok (some (if negative then -(e : Int) else e), more)
          | (none, more) =>
            if negative || isZero then
              .ok (some (if negative then leastInt32 else 0), more.dropWhile isDigit)
            else .error (.before .numberOutOfRange more)
    else .ok (none, b :: rest)

/-- Reads a number, whose minus sign is at the front if it has one. -/
def readNumber (bs : Bytes) : Except Fault (Json × Bytes) := do
  let (negative, bs) := match bs with
    | b :: rest => if b = 45 then (true, rest) else (false, bs)
    | [] => (false, [])
  let (whole, bs) ← readWhole bs
  let (fraction?, bs) ← readFraction bs
  let significand := (absorb (absorb 0 whole).1 (fraction?.getD [])).1
  let (exponent?, bs) ← readExponent (significand = 0) bs
  match (Numeral.mk negative whole fraction? exponent?).value? with
  | some value => return (value, bs)
  | none => throw (.before .numberOutOfRange bs)

end EventRelay.Json
