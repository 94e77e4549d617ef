import EventRelay.Decimal.Shortest
/-!
# The written form of a double

Shortest digits set out in plain or scientific form. A `Layout` says up to which exponents the
plain form is used, how an exponent is written and which of two equally near decimals is taken; the
two layouts in use are that of documents and that of diagnostic texts.
-/

namespace EventRelay.Decimal

/-- How doubles are set out. A value whose first digit has weight `10 ^ e` is written plainly
when `leastPlain ≤ e ≤ mostPlain`; otherwise an exponent is written, a positive one with a plus
sign when `plusSign` is set. -/
structure Layout where
  leastPlain : Int
  mostPlain : Int
  plusSign : Bool
  tie : Tie
  deriving Repr

/-- Documents write `0.00001` and `1e+16`, and `562949953421312.2` for a value with a quarter. -/
def Layout.document : Layout := ⟨-5, 15, true, .toEven⟩

/-- Diagnostic texts write `0.0001` and `1e16`, and `562949953421312.3` for a value with a
quarter. -/
def Layout.diagnostic : Layout := ⟨-4, 15, false, .up⟩

/-- Decimal digits of a natural number, most significant first. -/
def natDigits (n : Nat) : List Char :=
  Nat.toDigits 10 n

def plain (digits : List Char) (exponent : Int) : List Char :=
  if 0 ≤ exponent then digits ++ List.replicate exponent.toNat '0' ++ ['.', '0']
  else
    let places := (-exponent).toNat
    if places < digits.length then
      digits.take (digits.length - places) ++ '.' :: digits.drop (digits.length - places)
    else '0' :: '.' :: List.replicate (places - digits.length) '0' ++ digits

def Layout.scientific (layout : Layout) (digits : List Char) (weight : Int) : List Char :=
  let sign := if weight < 0 then ['-'] else if layout.plusSign then ['+'] else []
  let fraction := match digits.drop 1 with
    | [] => []
    | rest => '.' :: rest
  digits.take 1 ++ fraction ++ 'e' :: sign ++ natDigits weight.natAbs

def Layout.positive (layout : Layout) (decimal : Digits) : List Char :=
  let digits := natDigits decimal.significand
  let weight := decimal.exponent + digits.length - 1
  if layout.leastPlain ≤ weight ∧ weight ≤ layout.mostPlain then plain digits decimal.exponent
  else layout.scientific digits weight

/-- The digits of a positive decimal without an exponent, down to the last one that counts. -/
def bare (decimal : Digits) : List Char :=
  let digits := plain (natDigits decimal.significand) decimal.exponent
  if 0 ≤ decimal.exponent then digits.take (digits.length - 2) else digits

/-- A double in full: no exponent, and no point after a whole number. The greater of two equally
near decimals is taken. -/
def writeInFull (x : Float) : List Char :=
  if x.isNaN then "NaN".toList
  else
    let bits := x.toBits
    let sign := if bits.toNat / pow2 63 = 1 then ['-'] else []
    if x.isInf then sign ++ "inf".toList
    else match Binary.ofBits bits with
      | none => sign ++ ['0']
      | some b => sign ++ bare (b.shortest .up)

/-- The written form of a double: its sign, also that of a zero, and the shortest digits. -/
def Layout.write (layout : Layout) (x : Float) : List Char :=
  if x.isNaN then "NaN".toList
  else
    let bits := x.toBits
    let sign := if bits.toNat / pow2 63 = 1 then ['-'] else []
    if x.isInf then sign ++ "inf".toList
    else match Binary.ofBits bits with
      | none => sign ++ "0.0".toList
      | some b => sign ++ layout.positive (b.shortest layout.tie)

end EventRelay.Decimal
