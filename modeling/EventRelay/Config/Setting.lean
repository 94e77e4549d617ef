import EventRelay.Decimal.Layout
import EventRelay.Decimal.Numeral
import EventRelay.Text.Lowercase
import EventRelay.Text.Quoted
/-!
# Settings

What a configuration is put together from: a tree of tables and lists with truth values, numbers and
texts at its ends. A `Path` leads to a place in the tree, whether it is there already or not.
`Setting.put` puts a setting there; what is in the way and is neither table nor list is replaced by
one. That fails only where a list has no such place.

Main definitions: `Setting`, `Path.ofText`, `PlaceFault`, `Setting.ofText` and `Setting.put`.
-/

namespace EventRelay

inductive Setting where
  | nothing
  | truth (b : Bool)
  /-- A whole number of 64 bits with a sign. -/
  | whole (i : Int)
  | number (x : Float)
  | text (s : String)
  | list (items : List Setting)
  | table (members : List (String × Setting))

/-! ### Paths -/

/-- A step down in a tree. -/
inductive Path.Step where
  | member (name : String)
  /-- A place in a list, counted from the end if it is negative. -/
  | item (index : Int)
  deriving DecidableEq, Repr

abbrev Path : Type := List Path.Step

namespace Path

/-- The characters of names in paths: letters, digits, blanks, low lines and hyphens. -/
def isNameChar (c : Char) : Bool :=
  ('a' ≤ c && c ≤ 'z') || ('A' ≤ c && c ≤ 'Z') || Decimal.isDigit c || c = ' ' || c = '_' || c = '-'

def isSpace (c : Char) : Bool := c = ' ' || c = '\t'

/-- The number of a place in a list, without a plus sign. -/
def index? (chars : List Char) : Option Int :=
  let trimmed := ((chars.dropWhile isSpace).reverse.dropWhile isSpace).reverse
  if trimmed.head? = some '+' then none else Decimal.integer64? trimmed

/-- What a path is in the middle of, with the characters read of it so far. -/
inductive Part where
  | name (read : List Char)
  | place (read : List Char)
  /-- A place in a list has just been closed. -/
  | closed

/-- The part that begins with a character. -/
def opening? (c : Char) : Option Part :=
  if c = '.' then some (.name []) else if c = '[' then some (.place []) else none

/-- The steps from the middle of a part on: names, behind points, and places between brackets. -/
def steps? : Part → List Char → Option Path
  | .name read, [] => if read.isEmpty then none else some [.member (String.ofList read)]
  | .name read, c :: rest =>
    if isNameChar c then steps? (.name (read ++ [c])) rest
    else if read.isEmpty then none
    else (opening? c).bind fun part =>
      (steps? part rest).map (.member (String.ofList read) :: ·)
  | .place _, [] => none
  | .place read, c :: rest =>
    if c = ']' then (index? read).bind fun i => (steps? .closed rest).map (.item i :: ·)
    else steps? (.place (read ++ [c])) rest
  | .closed, [] => some []
  | .closed, c :: rest => (opening? c).bind fun part => steps? part rest

/-- The path that a text spells, which begins with a name. A text that spells none is a name as a
whole. -/
def ofText (s : String) : Path :=
  (steps? (.name []) s.toList).getD [.member s]

example : ofText "retry.delays[-1]" = [.member "retry", .member "delays", .item (-1)] := by
  decide +kernel
example : ofText "delays[ 7 ]" = [.member "delays", .item 7] := by decide +kernel
example : ofText "retry." = [.member "retry."] := by decide +kernel

end Path

/-! ### Places in lists -/

inductive PlaceFault where
  | before
  | beyond
  deriving DecidableEq, Repr

namespace PlaceFault

def message : PlaceFault → String
  | .before => Overflow.subtract.message
  | .beyond => "capacity overflow"

def mostItems : Nat := pow2 22

end PlaceFault

/-- The place that a number means in a list of so many items, or behind them. A negative number
counts from the end of the list. -/
def placeIn (length : Nat) (index : Int) : Except PlaceFault Nat :=
  if index < 0 then
    if index.natAbs ≤ length then .ok (length - index.natAbs) else .error .before
  else if index.toNat < PlaceFault.mostItems then .ok index.toNat
  else .error .beyond

namespace Setting

/-! ### Reading and placing -/

/-- What a text is taken for: a truth value, a whole number, a number or a text, whichever it can be
first. -/
def ofText (s : String) : Setting :=
  let lower := Text.lowercase s
  if lower = "true" then .truth true
  else if lower = "false" then .truth false
  else
    match Decimal.integer64? s.toList, Decimal.float? s with
    | some i, _ => .whole i
    | none, some x => .number x
    | none, none => .text s

/-- The members of a table; other settings have none. -/
def members : Setting → List (String × Setting)
  | .table members => members
  | _ => []

/-- The items of a list; other settings have none. -/
def items : Setting → List Setting
  | .list items => items
  | _ => []

/-- Sets the member of a name, which is added if it is not there. -/
def setMember (name : String) (value : Setting) : List (String × Setting) → List (String × Setting)
  | [] => [(name, value)]
  | (other, old) :: rest =>
    if other = name then (name, value) :: rest
    else (other, old) :: setMember name value rest

def setItem (place : Nat) (value : Setting) (items : List Setting) : List Setting :=
  (items ++ List.replicate (place + 1 - items.length) Setting.nothing).set place value

def put (value : Setting) : Path → Setting → Except PlaceFault Setting
  | [], _ => .ok value
  | .member name :: rest, s => do
    let new ← put value rest ((s.members.lookup name).getD .nothing)
    return .table (setMember name new s.members)
  | .item index :: rest, s => do
    let place ← placeIn s.items.length index
    let new ← put value rest (s.items.getD place .nothing)
    return .list (setItem place new s.items)

/-! ### Names of settings -/

/-- A setting as messages about a field show it. -/
def found : Setting → String
  | .nothing => "unit value"
  | .truth b => "boolean `" ++ (if b then "true" else "false") ++ "`"
  | .whole i => "64-bit integer `" ++ toString i ++ "`"
  | .number x => "floating point `" ++ String.ofList (Decimal.writeInFull x) ++ "`"
  | .text s => "string " ++ Text.quoted s
  | .list _ => "sequence"
  | .table _ => "map"

/-- A setting as messages about a record show it: numbers that are not whole have a point. -/
def foundForRecord : Setting → String
  | .whole i => "integer `" ++ toString i ++ "`"
  | .number x =>
    let digits := Decimal.writeInFull x
    let point := if x.isFinite && !digits.contains '.' then ['.', '0'] else []
    "floating point `" ++ String.ofList (digits ++ point) ++ "`"
  | s => s.found

/-- Whether a setting was given by a single variable. -/
def isGiven : Setting → Bool
  | .truth _ | .whole _ | .number _ | .text _ => true
  | .nothing | .list _ | .table _ => false

end Setting

end EventRelay
