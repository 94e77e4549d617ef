import EventRelay.Decimal.Layout
import EventRelay.Decimal.Nearest
/-!
# Spans of time

A `Duration` is a natural number of nanoseconds. Configurations give at most `2 ^ 64 - 1` whole
seconds; the type itself has no bound. Seconds as a double, and back, serve the backoff formula.
-/

namespace EventRelay

/-- A span of time in nanoseconds. -/
structure Duration where
  nanoseconds : Nat
  deriving DecidableEq, Repr, Inhabited

namespace Duration

/-- Nanoseconds in a second, a millisecond and a microsecond. -/
def perSecond : Nat := 1000000000

def perMilli : Nat := 1000000

def perMicro : Nat := 1000

def ofSeconds (n : Nat) : Duration := ⟨n * perSecond⟩

def ofMillis (n : Nat) : Duration := ⟨n * perMilli⟩

def ofParts (seconds nanoseconds : Nat) : Duration := ⟨seconds * perSecond + nanoseconds⟩

def seconds (d : Duration) : Nat := d.nanoseconds / perSecond

def fraction (d : Duration) : Nat := d.nanoseconds % perSecond

def zero : Duration := ⟨0⟩

def isZero (d : Duration) : Bool := d.nanoseconds = 0

instance : LE Duration := ⟨fun a b => a.nanoseconds ≤ b.nanoseconds⟩

instance : LT Duration := ⟨fun a b => a.nanoseconds < b.nanoseconds⟩

instance (a b : Duration) : Decidable (a ≤ b) :=
  inferInstanceAs (Decidable (a.nanoseconds ≤ b.nanoseconds))

instance (a b : Duration) : Decidable (a < b) :=
  inferInstanceAs (Decidable (a.nanoseconds < b.nanoseconds))

/-! ### Seconds as a double -/

/-- The seconds, rounded to a double, plus the rest, rounded too. -/
def toSeconds (d : Duration) : Float :=
  d.seconds.toUInt64.toFloat + d.fraction.toUInt64.toFloat / 1e9

def nearestNanoseconds (b : Decimal.Binary) : Nat :=
  Decimal.roundHalfEven (b.mantissa * perSecond * pow2 b.exponent.toNat) (pow2 (-b.exponent).toNat)

/-- The span of so many seconds, to the nearest nanosecond; `none` for a negative number. -/
def ofSecondsFloat? (x : Float) : Option Duration :=
  match Decimal.Binary.ofBits x.toBits with
  | none => some zero
  | some b => if x < 0.0 then none else some ⟨nearestNanoseconds b⟩

/-! ### Diagnostic text -/

/-- A number with at most `places` digits after the point, without zeros at its end. -/
def decimalText (whole rest places : Nat) : List Char :=
  let digits := Decimal.natDigits rest
  let padded := List.replicate (places - digits.length) '0' ++ digits
  let shown := (padded.reverse.dropWhile (· = '0')).reverse
  Decimal.natDigits whole ++ (if rest = 0 then [] else '.' :: shown)

/-- The span in the greatest unit of which it has at least one. -/
def diagnostic (d : Duration) : String :=
  let n := d.nanoseconds
  String.ofList <|
    if perSecond ≤ n then decimalText (n / perSecond) (n % perSecond) 9 ++ ['s']
    else if perMilli ≤ n then decimalText (n / perMilli) (n % perMilli) 6 ++ ['m', 's']
    else if perMicro ≤ n then decimalText (n / perMicro) (n % perMicro) 3 ++ ['µ', 's']
    else decimalText n 0 0 ++ ['n', 's']

end Duration

end EventRelay
