/-!
# The calendar

Days of the proleptic Gregorian calendar, counted from 1 January 1970. Years are reckoned from
March, so that a leap day is the last day of its year, and in cycles of 400 years, which all have
146097 days.
-/

namespace EventRelay

/-- A day by year, month and day of the month. -/
structure Date where
  year : Int
  month : Nat
  day : Nat
  deriving DecidableEq, Repr

namespace Date

def isLeapYear (year : Int) : Bool :=
  year % 4 = 0 && (year % 100 != 0 || year % 400 = 0)

def daysInMonth (year : Int) (month : Nat) : Nat :=
  if month = 2 then (if isLeapYear year then 29 else 28)
  else if month = 4 ∨ month = 6 ∨ month = 9 ∨ month = 11 then 30
  else 31

def isValid (d : Date) : Bool :=
  1 ≤ d.month && d.month ≤ 12 && 1 ≤ d.day && d.day ≤ daysInMonth d.year d.month

def epochOffset : Int := 719468

/-- How many days before the first of a month, in a year that begins with March as month 0. -/
def daysBeforeMonth (m : Nat) : Nat :=
  (153 * m + 2) / 5

/-- The number of a day, counted from 1 January 1970. -/
def toDays (d : Date) : Int :=
  let fromMarch := (d.month + 9) % 12
  let year := if d.month ≤ 2 then d.year - 1 else d.year
  let cycle := year / 400
  let yearOfCycle := year % 400
  let dayOfYear : Int := daysBeforeMonth fromMarch + d.day - 1
  cycle * 146097 + (yearOfCycle * 365 + yearOfCycle / 4 - yearOfCycle / 100 + dayOfYear)
    - epochOffset

def ofDays (n : Int) : Date :=
  let shifted := n + epochOffset
  let cycle := shifted / 146097
  let dayOfCycle := (shifted % 146097).toNat
  let yearOfCycle :=
    (dayOfCycle - dayOfCycle / 1460 + dayOfCycle / 36524 - dayOfCycle / 146096) / 365
  let dayOfYear := dayOfCycle - (365 * yearOfCycle + yearOfCycle / 4 - yearOfCycle / 100)
  let fromMarch := (5 * dayOfYear + 2) / 153
  let month := if fromMarch < 10 then fromMarch + 3 else fromMarch - 9
  { year := cycle * 400 + yearOfCycle + (if month ≤ 2 then 1 else 0)
    month
    day := dayOfYear - daysBeforeMonth fromMarch + 1 }

example : toDays ⟨2024, 2, 29⟩ = 19782 ∧ ofDays 19782 = ⟨2024, 2, 29⟩ := by decide

end Date

end EventRelay
