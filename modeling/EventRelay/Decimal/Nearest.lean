import EventRelay.Decimal.Shortest
/-!
# The double nearest to a decimal

Quotients of natural numbers are rounded to whole numbers and to doubles, of two equally near
results to the even one. A double in a binade is a multiple of the unit of that binade, so its
mantissa is a quotient rounded to a whole number; the doubles below the least binade have the unit
of that binade. Everything is exact arithmetic on natural numbers, whatever the number of digits.

Main definitions: `roundHalfEven`, `nearestBits` and `Digits.toFloat`.
-/

namespace EventRelay.Decimal

/-- The nearest whole number to a quotient; of two equally near the even one. -/
def roundHalfEven (num den : Nat) : Nat :=
  let q := num / den
  let twice := 2 * (num % den)
  if twice < den then q
  else if den < twice then q + 1
  else if q % 2 = 0 then q else q + 1

/-- The greatest `e` for which `2 ^ e` is at most a positive quotient. -/
def floorLog (num den : Nat) : Int :=
  let e : Int := (num.log2 : Int) - den.log2
  if den * pow2 e.toNat ≤ num * pow2 (-e).toNat then e else e - 1

def leastExponent : Int := -1074

def infinityBits : Nat := 2047 * pow2 52

/-- The bits of the double nearest to a positive quotient. A mantissa that is rounded up to the next
power of two carries into the exponent, whose bits stand in front of it, and the greatest exponent
carries into infinity. -/
def nearestBits (num den : Nat) : Nat :=
  let unit := max (floorLog num den - 52) leastExponent
  let mantissa := roundHalfEven (num * pow2 (-unit).toNat) (den * pow2 unit.toNat)
  min ((unit - leastExponent).toNat * pow2 52 + mantissa) infinityBits

example : nearestBits 1 10 = 0x3FB999999999999A := by decide +kernel
example : nearestBits 5 (pow10 324) = 1 ∧ nearestBits (pow10 309) 1 = infinityBits := by
  decide +kernel

/-- The double nearest to a decimal. Decimals far beyond the range of doubles are not worked out. -/
def Digits.toFloat (d : Digits) : Float :=
  let weight := d.exponent + (d.significand.log2 * 30103 / 100000 : Nat)
  if d.significand = 0 ∨ weight < -400 then 0.0
  else if 400 < weight then 1.0 / 0.0
  else
    .ofBits <| .ofNat <|
      nearestBits (d.significand * pow10 d.exponent.toNat) (pow10 (-d.exponent).toNat)

end EventRelay.Decimal
