import EventRelay.Time.Calendar
import EventRelay.Time.Duration
/-!
# Instants

A point of time in universal time, to the nanosecond: a second, counted from the beginning of 1970
without leap seconds, and a fraction of it. A leap second has no number of its own. It is kept on the
second in front of it, with a fraction from one second up to two, and so it comes after that second
and before the next one.

Instants that clocks show lie in the years from `Instant.leastYear` to `Instant.greatestYear`
(`Instant.InRange`). Moving an instant beyond them stops at `Instant.greatest` where a schedule must
not fail (`Instant.plus`, `Instant.plusAtMost`), and fails where a clock is moved (`Instant.shift`).
-/

namespace EventRelay

/-- A point of time: seconds from the beginning of 1970 and nanoseconds, of which a leap second has
a whole second too many. -/
structure Instant where
  second : Int
  fraction : Nat
  deriving DecidableEq, Repr, Inhabited

inductive TimeFault where
  | negativeDelay
  /-- A number on the way does not fit into its width. -/
  | overflow (o : Overflow)
  | spanOfMillis
  | spanOfSeconds
  /-- A sum lies beyond the range of instants. -/
  | beyondRange
  deriving DecidableEq, Repr

def TimeFault.message : TimeFault → String
  | .negativeDelay => "cannot convert float seconds to Duration: value is negative"
  | .overflow o => o.message
  | .spanOfMillis => "TimeDelta::milliseconds out of bounds"
  | .spanOfSeconds => "TimeDelta::seconds out of bounds"
  | .beyondRange => "`DateTime + TimeDelta` overflowed"

namespace Instant

/-! ### Order -/

instance : LT Instant :=
  ⟨fun a b => a.second < b.second ∨ a.second = b.second ∧ a.fraction < b.fraction⟩

instance : LE Instant :=
  ⟨fun a b => a.second < b.second ∨ a.second = b.second ∧ a.fraction ≤ b.fraction⟩

instance (a b : Instant) : Decidable (a < b) :=
  inferInstanceAs
    (Decidable (a.second < b.second ∨ a.second = b.second ∧ a.fraction < b.fraction))

instance (a b : Instant) : Decidable (a ≤ b) :=
  inferInstanceAs
    (Decidable (a.second < b.second ∨ a.second = b.second ∧ a.fraction ≤ b.fraction))

/-! ### Nanoseconds -/

def isLeap (t : Instant) : Bool :=
  Duration.perSecond ≤ t.fraction

/-- The instant of so many nanoseconds, which lies in no leap second. -/
def ofNanoseconds (n : Int) : Instant :=
  ⟨n / Duration.perSecond, (n % Duration.perSecond).toNat⟩

/-- The nanoseconds from the beginning of 1970. Those of a leap second are counted again for the
second after it. -/
def nanoseconds (t : Instant) : Int :=
  t.second * Duration.perSecond + t.fraction

/-! ### Range -/

def leastYear : Int := -262143

def greatestYear : Int := 262142

def perDay : Nat := 86400

def least : Instant := ⟨Date.toDays ⟨leastYear, 1, 1⟩ * perDay, 0⟩

/-- The end of the range: its last nanosecond that lies in no leap second. -/
def greatest : Instant :=
  ⟨(Date.toDays ⟨greatestYear, 12, 31⟩ + 1) * perDay - 1, Duration.perSecond - 1⟩

/-- Whether an instant is one that clocks show. -/
def InRange (t : Instant) : Prop :=
  least.second ≤ t.second ∧ t.second ≤ greatest.second ∧ t.fraction < 2 * Duration.perSecond

instance (t : Instant) : Decidable t.InRange :=
  inferInstanceAs (Decidable (least.second ≤ t.second ∧ t.second ≤ greatest.second ∧
    t.fraction < 2 * Duration.perSecond))

/-! ### Moving -/

/-- The instant that is so many nanoseconds away. One in a leap second is moved inside it by less
than a second, as far as it reaches. Left forwards, the leap second does not count as time, and left
backwards it does. -/
def shifted (t : Instant) (nanoseconds : Int) : Instant :=
  if !t.isLeap then ofNanoseconds (t.nanoseconds + nanoseconds)
  else if nanoseconds.natAbs < Duration.perSecond ∧
      t.fraction + nanoseconds < 2 * Duration.perSecond then
    ⟨t.second, (t.fraction + nanoseconds).toNat⟩
  else if 0 < nanoseconds then ofNanoseconds (t.nanoseconds - Duration.perSecond + nanoseconds)
  else ofNanoseconds (t.nanoseconds + nanoseconds)

/-- Moves an instant by so many nanoseconds, unless that leads out of the range. -/
def shift (t : Instant) (nanoseconds : Int) : Except TimeFault Instant :=
  let moved := t.shifted nanoseconds
  if moved.InRange then .ok moved else .error .beyondRange

/-- Moves an instant by so many milliseconds, of which there may be a 64-bit number, the least one
excepted. -/
def shiftMillis (t : Instant) (millis : Int) : Except TimeFault Instant :=
  if millis.natAbs ≤ greatestInt64.toNat then t.shift (millis * Duration.perMilli)
  else .error .spanOfMillis

/-- Moves an instant by so many steps of a number of seconds each. All together must not be longer
than a 64-bit number of milliseconds. -/
def shiftSteps (t : Instant) (steps : Nat) (seconds : Int) : Except TimeFault Instant := do
  let total ← (within64 .multiply (steps * seconds)).mapError .overflow
  if greatestInt64.toNat / 1000 < total.natAbs then throw .spanOfSeconds
  else t.shift (total * Duration.perSecond)

def longestMillis : Nat := greatestInt64.toNat

/-- An instant after a span. A span or a sum beyond the range gives the greatest instant. -/
def plus (t : Instant) (d : Duration) : Instant :=
  if d.nanoseconds ≤ longestMillis * Duration.perMilli then
    match t.shift d.nanoseconds with
    | .ok later => later
    | .error _ => greatest
  else greatest

/-- An instant after a span, of which no more is added than the longest that can be. A sum beyond
the range gives the greatest instant. -/
def plusAtMost (t : Instant) (d : Duration) : Instant :=
  match t.shift (min d.nanoseconds (longestMillis * Duration.perMilli) : Nat) with
  | .ok later => later
  | .error _ => greatest

end Instant

end EventRelay
