import EventRelay.Text.Blank
import EventRelay.Time.Duration
/-!
# Durations in words

Configurations spell a duration as a sum of amounts with units, `1h 30m` or `1.5s`. Blanks may
stand around and between the amounts, between an amount and its unit and between the digits of an
amount. A fraction has to come out exact, in nanoseconds for units up to minutes and in seconds for
longer ones. Amounts are 64-bit numbers, and so is each product on the way. A whole second of
nanoseconds is not carried over before the end.
-/

namespace EventRelay.Duration

/-! ### Units -/

/-- A unit: how many steps it has, the length of a step in nanoseconds, and how many steps a
fraction of the unit is measured in, which has its own step. -/
structure Scale where
  factor : Nat
  step : Nat
  fractionFactor? : Option Nat
  fractionStep : Nat

/-- Units up to a millisecond: their factor counts nanoseconds. -/
def Scale.short (factor : Nat) (fractions : Bool) : Scale :=
  ⟨factor, 1, if fractions then some factor else none, 1⟩

/-- Seconds and minutes: whole ones count seconds, fractions nanoseconds. -/
def Scale.middle (factor : Nat) : Scale :=
  ⟨factor, perSecond, some (factor * perSecond), 1⟩

/-- Hours and longer: both count seconds. -/
def Scale.long (factor : Nat) : Scale :=
  ⟨factor, perSecond, some factor, perSecond⟩

/-- The units by their names. A month is 30.44 days and a year 365.25 days. -/
def scale? (unit : String) : Option Scale :=
  if ["nanos", "nsec", "ns"].contains unit then some (.short 1 false)
  else if ["usec", "us", "µs"].contains unit then some (.short perMicro true)
  else if ["millis", "msec", "ms"].contains unit then some (.short perMilli true)
  else if ["seconds", "second", "secs", "sec", "s"].contains unit then some (.middle 1)
  else if ["minutes", "minute", "mins", "min", "m"].contains unit then some (.middle 60)
  else if ["hours", "hour", "hrs", "hr", "h"].contains unit then some (.long 3600)
  else if ["days", "day", "d"].contains unit then some (.long 86400)
  else if ["weeks", "week", "wks", "wk", "w"].contains unit then some (.long 604800)
  else if ["months", "month", "M"].contains unit then some (.long 2630016)
  else if ["years", "year", "yrs", "yr", "y"].contains unit then some (.long 31557600)
  else none

/-! ### Amounts -/

def within64? (n : Nat) : Option Nat :=
  if n < pow2 64 then some n else none

/-- An amount as spelled: a whole number and, behind a point, a fraction. -/
structure Amount where
  whole : Nat
  fraction? : Option (Nat × Nat)

/-- A sum of amounts: seconds, and nanoseconds that are fewer than a second or exactly one. -/
structure Total where
  seconds : Nat
  nanoseconds : Nat

/-- Adds `steps` of the given length, nanoseconds or seconds. More nanoseconds than a second has are
carried over. -/
def Total.plus? (total : Total) (steps step : Nat) : Option Total := do
  let nanoseconds ← within64? (total.nanoseconds + if step = 1 then steps else 0)
  let seconds ← within64? (total.seconds + if step = 1 then 0 else steps)
  if perSecond < nanoseconds then
    return ⟨← within64? (seconds + nanoseconds / perSecond), nanoseconds % perSecond⟩
  else return ⟨seconds, nanoseconds⟩

/-- Whether the nanoseconds make one second too many. -/
def Total.isFull (total : Total) : Bool :=
  total.nanoseconds = perSecond && total.seconds + 1 = pow2 64

/-- Adds an amount of a unit. -/
def Amount.addTo? (amount : Amount) (scale : Scale) (total : Total) : Option Total := do
  let steps ← within64? (amount.whole * scale.factor)
  let total ← total.plus? steps scale.step
  match amount.fraction? with
  | none => return total
  | some (numerator, denominator) =>
    let factor ← scale.fractionFactor?
    let product ← within64? (numerator * factor)
    if product % denominator = 0 then total.plus? (product / denominator) scale.fractionStep
    else none

/-! ### Reading -/

def digit? (c : Char) : Option Nat :=
  if '0' ≤ c ∧ c ≤ '9' then some (c.toNat - 48) else none

def isUnitChar (c : Char) : Bool :=
  ('a' ≤ c && c ≤ 'z') || ('A' ≤ c && c ≤ 'Z') || c = 'µ'

/-- Digits with blanks between them, up to the first other character: the digits in order and what
follows. -/
def spanSpacedDigits : List Char → List Nat × List Char
  | [] => ([], [])
  | c :: rest =>
    match digit? c with
    | some d => let (ds, left) := spanSpacedDigits rest; (d :: ds, left)
    | none => if Text.isBlank c then spanSpacedDigits rest else ([], c :: rest)

def ofDigits? (ds : List Nat) : Option Nat :=
  ds.foldlM (fun n d => within64? (n * 10 + d)) 0

theorem length_spanSpacedDigits (cs : List Char) : (spanSpacedDigits cs).2.length ≤ cs.length := by
  fun_induction spanSpacedDigits cs <;> simp_all <;> omega

def readAmount? (cs : List Char) : Option (Amount × List Char) := do
  let (ds, rest) := spanSpacedDigits cs
  let whole ← ofDigits? ds
  match rest with
  | '.' :: rest =>
    let (fs, rest) := spanSpacedDigits rest
    if fs.isEmpty then none
    else
      let denominator ← within64? (pow10 fs.length)
      let numerator ← ofDigits? fs
      return (⟨whole, some (numerator, denominator)⟩, rest)
  | rest => return (⟨whole, none⟩, rest)

/-- Adds the amounts that are spelled; `fuel` bounds their number. In front of an amount blanks are
passed over, and the text may end there unless it is the first. -/
def addAll? : (fuel : Nat) → (first : Bool) → Total → List Char → Option Total
  | 0, _, _, _ => none
  | fuel + 1, first, total, cs =>
    match Text.trimStart cs with
    | [] => if first then none else some total
    | c :: rest =>
      if (digit? c).isNone then none
      else do
        let (amount, rest) ← readAmount? (c :: rest)
        let scale ← scale? (String.ofList (rest.takeWhile isUnitChar))
        let total ← amount.addTo? scale total
        addAll? fuel false total (rest.dropWhile isUnitChar)

inductive SpellingFault where
  /-- It does not spell one that fits into 64 bits. -/
  | unreadable
  /-- The sum leaves 64 bits by the last carry, which is a panic. -/
  | overflow
  deriving DecidableEq, Repr

def overflowReport : String := "overflow in Duration::new"

def ofText (s : String) : Except SpellingFault Duration :=
  match addAll? (s.length + 1) true ⟨0, 0⟩ s.toList with
  | none => .error .unreadable
  | some total =>
    if total.isFull then .error .overflow else .ok (ofParts total.seconds total.nanoseconds)

example : (ofText "1h 30m").toOption = some (ofSeconds 5400) := by decide +kernel
example : (ofText "1.s").toOption = none := by decide +kernel

end EventRelay.Duration
