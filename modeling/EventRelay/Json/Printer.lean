import EventRelay.Decimal.Layout
import EventRelay.Json.Value
import EventRelay.Text.Utf8
/-!
# Writing JSON text

The compact form: no blanks, members in the order of the value, and escapes only for the quotation
mark, the backslash and the controls.
-/

namespace EventRelay.Json

def hexChar (n : Nat) : Char :=
  Nat.digitChar n

/-- How a character stands in a text. -/
def escapeChar (c : Char) : List Char :=
  if c = '"' then ['\\', '"']
  else if c = '\\' then ['\\', '\\']
  else if c.toNat < 0x20 then
    if c = '\n' then ['\\', 'n']
    else if c = '\r' then ['\\', 'r']
    else if c = '\t' then ['\\', 't']
    else if c.toNat = 8 then ['\\', 'b']
    else if c.toNat = 12 then ['\\', 'f']
    else ['\\', 'u', '0', '0', hexChar (c.toNat / 16), hexChar (c.toNat % 16)]
  else [c]

def writeText (s : String) : List Char :=
  '"' :: s.toList.flatMap escapeChar ++ ['"']

def writeInteger (i : Int) : List Char :=
  if i < 0 then '-' :: Decimal.natDigits i.natAbs else Decimal.natDigits i.toNat

/-- A double. What is no number and the infinities have no form of their own and are written as
null. -/
def writeFloat (x : Float) : List Char :=
  if x.isNaN || x.isInf then ['n', 'u', 'l', 'l'] else Decimal.Layout.document.write x

mutual

def write : Json → List Char
  | .null => ['n', 'u', 'l', 'l']
  | .bool true => ['t', 'r', 'u', 'e']
  | .bool false => ['f', 'a', 'l', 's', 'e']
  | .integer i => writeInteger i
  | .float x => writeFloat x
  | .text s => writeText s
  | .array items => '[' :: writeItems true items
  | .object members => '\x7b' :: writeMembers true members

/-- The items of an array and its closing bracket. -/
def writeItems (first : Bool) : List Json → List Char
  | [] => [']']
  | item :: rest => (if first then [] else [',']) ++ item.write ++ writeItems false rest

/-- The members of an object and its closing brace. -/
def writeMembers (first : Bool) : List (String × Json) → List Char
  | [] => ['\x7d']
  | (name, value) :: rest =>
    (if first then [] else [',']) ++ writeText name ++ ':' :: value.write ++ writeMembers false rest

end

def toText (value : Json) : String :=
  String.ofList value.write

def toBytes (value : Json) : Bytes :=
  Utf8.encode value.write

end EventRelay.Json
