import EventRelay.Decimal.Nearest
/-!
# Numerals in plain text

Numbers as people spell them outside of documents. A whole number has a sign or none and fits into
64 bits. Any other number may have a point with digits on one side of it at least, an exponent, and
the names of the infinities and of what is no number, in either case; it stands for the nearest
double.
-/

namespace EventRelay.Decimal

def isDigit (c : Char) : Bool := '0' ≤ c && c ≤ '9'

def digitsValue (digits : List Char) : Nat :=
  digits.foldl (fun n c => n * 10 + (c.toNat - 48)) 0

/-- A sign, if there is one, and what follows it; the sign says whether it is negative. -/
def splitSign : List Char → Bool × List Char
  | '-' :: rest => (true, rest)
  | '+' :: rest => (false, rest)
  | chars => (false, chars)

def integer? (chars : List Char) : Option Int :=
  let (negative, digits) := splitSign chars
  if digits.isEmpty || !digits.all isDigit then none
  else
    let magnitude : Int := digitsValue digits
    some (if negative then -magnitude else magnitude)

def integer64? (chars : List Char) : Option Int :=
  (integer? chars).filter fun i => leastInt64 ≤ i && i ≤ greatestInt64

/-- An exponent after the letter `e`, or none at all. -/
def exponent? : List Char → Option Int
  | [] => some 0
  | e :: rest => if e = 'e' ∨ e = 'E' then integer? rest else none

/-- Digits with a point and an exponent; there has to be a digit in front of the exponent. -/
def digits? (chars : List Char) : Option Digits :=
  let before := chars.takeWhile isDigit
  let rest := chars.dropWhile isDigit
  let (after, rest) := match rest with
    | '.' :: rest => (rest.takeWhile isDigit, rest.dropWhile isDigit)
    | rest => ([], rest)
  if before.isEmpty && after.isEmpty then none
  else (exponent? rest).map fun exponent =>
    ⟨digitsValue (before ++ after), exponent - after.length⟩

def magnitude? (chars : List Char) : Option Float :=
  let name := String.ofList (chars.map Char.toLower)
  if name = "inf" ∨ name = "infinity" then some (1.0 / 0.0)
  else if name = "nan" then some (0.0 / 0.0)
  else (digits? chars).map Digits.toFloat

def float? (text : String) : Option Float :=
  let (negative, rest) := splitSign text.toList
  (magnitude? rest).map fun x => if negative then -x else x

example : digits? ".5e-7".toList = some ⟨5, -8⟩ := by decide +kernel
example : digits? "5.".toList = some ⟨5, 0⟩ ∧ digits? ".e1".toList = none := by decide +kernel

end EventRelay.Decimal
