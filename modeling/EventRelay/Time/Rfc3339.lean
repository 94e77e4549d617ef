import EventRelay.Text.Blank
import EventRelay.Time.Instant
/-!
# Date texts

Instants in the notation of RFC 3339. Written ones are in universal time and have the fewest groups
of three digits after the second that are exact. Read ones may have any offset, blanks between their
parts and a blank in place of the `T`. A leap second is the second 60 of its minute, and any minute
may have one. Years outside 0 to 9999 carry a sign.

Main definitions: `Instant.write` and `Instant.ofText`.
-/

namespace EventRelay.Instant

/-! ### Writing -/

/-- A number filled up with zeros to at least the given number of digits. -/
def padded (n width : Nat) : List Char :=
  let digits := Decimal.natDigits n
  List.replicate (width - digits.length) '0' ++ digits

/-- A year: four digits, or a sign and at least four. -/
def writeYear (year : Int) : List Char :=
  if 0 ≤ year ∧ year ≤ 9999 then padded year.toNat 4
  else (if year < 0 then '-' else '+') :: padded year.natAbs 4

/-- The fraction of a second in three, six or nine digits, or nothing when it is zero. -/
def writeFraction (n : Nat) : List Char :=
  if n = 0 then []
  else if n % Duration.perMilli = 0 then '.' :: padded (n / Duration.perMilli) 3
  else if n % Duration.perMicro = 0 then '.' :: padded (n / Duration.perMicro) 6
  else '.' :: padded n 9

/-- Date and time of day in universal time, without an offset. -/
def writeLocal (t : Instant) : List Char :=
  let date := Date.ofDays (t.second / perDay)
  let ofDay := (t.second % perDay).toNat
  let ofMinute := ofDay % 60 + t.fraction / Duration.perSecond
  writeYear date.year ++ '-' :: padded date.month 2 ++ '-' :: padded date.day 2
    ++ 'T' :: padded (ofDay / 3600) 2 ++ ':' :: padded (ofDay / 60 % 60) 2
    ++ ':' :: padded ofMinute 2 ++ writeFraction (t.fraction % Duration.perSecond)

/-- The form used in documents and answers, which ends in `Z`. -/
def write (t : Instant) : String :=
  String.ofList (t.writeLocal ++ ['Z'])

/-- The form used in notices, which spells the offset out. -/
def writeWithOffset (t : Instant) : String :=
  String.ofList (t.writeLocal ++ ['+', '0', '0', ':', '0', '0'])

/-! ### Reading -/

inductive DateFault where
  | invalid
  | outOfRange
  | tooShort
  | tooLong
  | impossible
  deriving DecidableEq, Repr

def DateFault.message : DateFault → String
  | .invalid => "input contains invalid characters"
  | .outOfRange => "input is out of range"
  | .tooShort => "premature end of input"
  | .tooLong => "trailing input"
  | .impossible => "no possible date and time matching input"

/-- A reader of a part of a date: it takes the characters in front of it and gives back those that
follow. -/
abbrev PartReader (α : Type) := List Char → Except DateFault (α × List Char)

def digit? (c : Char) : Option Nat :=
  if '0' ≤ c ∧ c ≤ '9' then some (c.toNat - 48) else none

def leadingDigits : (most : Nat) → List Char → List Nat × List Char
  | 0, cs => ([], cs)
  | _ + 1, [] => ([], [])
  | most + 1, c :: rest =>
    match digit? c with
    | some d => let (ds, left) := leadingDigits most rest; (d :: ds, left)
    | none => ([], c :: rest)

/-- A number of one to `most` digits that fits into 64 bits with a sign. -/
def readNumber (most : Nat) : PartReader Nat := fun cs =>
  match leadingDigits most cs with
  | ([], []) => .error .tooShort
  | ([], _ :: _) => .error .invalid
  | (ds, rest) =>
    let n := ds.foldl (fun n d => n * 10 + d) 0
    if n < pow2 63 then .ok (n, rest) else .error .outOfRange

/-- A year, with a sign and then of any length, or of up to four digits. -/
def readYear : PartReader Int := fun cs =>
  let bounded (negative : Bool) (r : Except DateFault (Nat × List Char)) := do
    let (n, rest) ← r
    let year : Int := if negative then -n else n
    if leastInt32 ≤ year ∧ year ≤ greatestInt32 then .ok (year, rest) else .error .outOfRange
  match Text.trimStart cs with
  | '-' :: rest => bounded true (readNumber rest.length rest)
  | '+' :: rest => bounded false (readNumber rest.length rest)
  | rest => bounded false (readNumber 4 rest)

/-- A number of up to two digits between two bounds, blanks in front of it. -/
def readPart (least most : Nat) : PartReader Nat := fun cs => do
  let (n, rest) ← readNumber 2 (Text.trimStart cs)
  if least ≤ n ∧ n ≤ most then return (n, rest) else throw .outOfRange

def readMark (mark : Char) (cs : List Char) : Except DateFault (List Char) :=
  match Text.trimStart cs with
  | [] => .error .tooShort
  | c :: rest => if c = mark then .ok rest else .error .invalid

/-- The letter or blank between date and time of day. -/
def readDivider : List Char → Except DateFault (List Char)
  | [] => .error .tooShort
  | c :: rest => if c = 'T' ∨ c = 't' ∨ c = ' ' then .ok rest else .error .invalid

/-- A point and digits after the second, of which nine count. -/
def readFraction : PartReader Nat := fun cs =>
  match cs with
  | '.' :: rest =>
    match leadingDigits 9 rest with
    | ([], []) => .error .tooShort
    | ([], _ :: _) => .error .invalid
    | (ds, rest) =>
      let n := ds.foldl (fun n d => n * 10 + d) 0
      .ok (n * pow10 (9 - ds.length), rest.dropWhile fun c => (digit? c).isSome)
  | cs => .ok (0, cs)

/-- Two digits. A text with one octet left is too short, a longer one invalid. -/
def readPair : PartReader (Nat × Nat) := fun cs =>
  match cs with
  | a :: b :: rest =>
    match digit? a, digit? b with
    | some a, some b => .ok ((a, b), rest)
    | _, _ => .error .invalid
  | [a] => if a.toNat < 0x80 then .error .tooShort else .error .invalid
  | [] => .error .tooShort

/-- Hours and minutes of an offset, in minutes. -/
def readOffsetAmount : PartReader Nat := fun cs => do
  let ((h₁, h₂), rest) ← readPair cs
  let ((m₁, m₂), rest) ← readPair (rest.dropWhile fun c => c = ':' || Text.isBlank c)
  if m₁ < 6 then return ((h₁ * 10 + h₂) * 60 + m₁ * 10 + m₂, rest) else throw .outOfRange

def readOffset : PartReader Int := fun cs =>
  match Text.trimStart cs with
  | [] => .error .tooShort
  | a :: rest =>
    if (String.ofList ((a :: rest).take 3)).toLower = "utc" then .ok (0, rest.drop 2)
    else if a = 'Z' ∨ a = 'z' then .ok (0, rest)
    else if a = '+' then do
      let (n, rest) ← readOffsetAmount rest
      return ((n : Int), rest)
    else if a = '-' ∨ a.toNat = 0x2212 then do
      let (n, rest) ← readOffsetAmount rest
      return (-(n : Int), rest)
    else .error .invalid

/-- The instant of a date, a time of day and an offset. The second 60 is the leap second that follows
the second 59. -/
def ofParts (date : Date) (hour minute second nanosecond : Nat) (offset : Int) :
    Except DateFault Instant :=
  if !date.isValid ∨ date.year < leastYear ∨ greatestYear < date.year then .error .outOfRange
  else if 1440 ≤ offset.natAbs then .error .outOfRange
  else
    let ofMinute := min second 59
    let seconds : Int := date.toDays * perDay + hour * 3600 + minute * 60 + ofMinute - offset * 60
    let t : Instant := ⟨seconds, (second - ofMinute) * Duration.perSecond + nanosecond⟩
    if t.InRange then .ok t else .error .impossible

def ofText (s : String) : Except DateFault Instant := do
  let (year, rest) ← readYear s.toList
  let rest ← readMark '-' rest
  let (month, rest) ← readPart 1 12 rest
  let rest ← readMark '-' rest
  let (day, rest) ← readPart 1 31 rest
  let rest ← readDivider rest
  let (hour, rest) ← readPart 0 23 rest
  let rest ← readMark ':' rest
  let (minute, rest) ← readPart 0 59 rest
  let rest ← readMark ':' rest
  let (second, rest) ← readPart 0 60 rest
  let (nanosecond, rest) ← readFraction rest
  let (offset, rest) ← readOffset rest
  if (Text.trimStart rest).isEmpty then
    ofParts ⟨year, month, day⟩ hour minute second nanosecond offset
  else throw .tooLong

end EventRelay.Instant
