import EventRelay.Decimal.Layout
import EventRelay.Text.Quoted
import EventRelay.Text.Utf8
/-!
# What can be wrong with a document

A `Fault` is a cause together with the place where it was found, counted by the octets of the
document that are still unread there; a fault found in a value that is in memory has no place.
`Fault.message` turns the place into a line and a column.
-/

namespace EventRelay.Json

/-! ### Malformed text -/

inductive Malformed where
  | eofValue
  | eofArray
  | eofObject
  | eofText
  | expectedValue
  | expectedLiteral
  | expectedColon
  | expectedCommaOrBracket
  | expectedCommaOrBrace
  | nameNotText
  | trailingComma
  | trailingCharacters
  | invalidNumber
  | numberOutOfRange
  | invalidEscape
  | invalidCodePoint
  | loneSurrogate
  | endOfHexEscape
  | controlCharacter
  | recursionLimit
  deriving DecidableEq, Repr

def Malformed.message : Malformed → String
  | .eofValue => "EOF while parsing a value"
  | .eofArray => "EOF while parsing a list"
  | .eofObject => "EOF while parsing an object"
  | .eofText => "EOF while parsing a string"
  | .expectedValue => "expected value"
  | .expectedLiteral => "expected ident"
  | .expectedColon => "expected `:`"
  | .expectedCommaOrBracket => "expected `,` or `]`"
  | .expectedCommaOrBrace => "expected `,` or `\x7d`"
  | .nameNotText => "key must be a string"
  | .trailingComma => "trailing comma"
  | .trailingCharacters => "trailing characters"
  | .invalidNumber => "invalid number"
  | .numberOutOfRange => "number out of range"
  | .invalidEscape => "invalid escape"
  | .invalidCodePoint => "invalid unicode code point"
  | .loneSurrogate => "lone leading surrogate in hex escape"
  | .endOfHexEscape => "unexpected end of hex escape"
  | .controlCharacter => "control character (\\u0000-\\u001F) found while parsing a string"
  | .recursionLimit => "recursion limit exceeded"

/-! ### Unfitting values -/

/-- What was found instead of the value that was wanted. -/
inductive Found where
  | null
  | bool (b : Bool)
  | integer (i : Int)
  | float (x : Float)
  | text (s : String)
  | sequence
  | map

def Found.message : Found → String
  | .null => "null"
  | .bool b => "boolean `" ++ (if b then "true" else "false") ++ "`"
  | .integer i => "integer `" ++ toString i ++ "`"
  | .float x => "floating point `" ++ String.ofList (Decimal.Layout.document.write x) ++ "`"
  | .text s => "string " ++ Text.quoted s
  | .sequence => "sequence"
  | .map => "map"

/-- Names between backquotes, two joined by "or", more after "one of". -/
def alternatives (names : List String) : String :=
  match names with
  | [a, b] => "`" ++ a ++ "` or `" ++ b ++ "`"
  | [a] => "`" ++ a ++ "`"
  | names => "one of " ++ ", ".intercalate (names.map fun name => "`" ++ name ++ "`")

inductive Cause where
  | malformed (m : Malformed)
  | missingField (name : String)
  | duplicateField (name : String)
  | unknownVariant (name : String) (known : List String)
  | invalidType (found : Found) (expected : String)
  | invalidValue (found : Found) (expected : String)
  | invalidLength (length : Nat) (expected : String)
  /-- The value has the right type, but its own reader refuses it. -/
  | refused (reason : String)
  /-- Its own reader panics. -/
  | crash (report : String)

def Cause.message : Cause → String
  | .malformed m => m.message
  | .missingField name => "missing field `" ++ name ++ "`"
  | .duplicateField name => "duplicate field `" ++ name ++ "`"
  | .unknownVariant name known =>
    "unknown variant `" ++ name ++ "`, expected " ++ alternatives known
  | .invalidType found expected => "invalid type: " ++ found.message ++ ", expected " ++ expected
  | .invalidValue found expected => "invalid value: " ++ found.message ++ ", expected " ++ expected
  | .invalidLength length expected =>
    "invalid length " ++ toString length ++ ", expected " ++ expected
  | .refused reason | .crash reason => reason

/-! ### Places -/

/-- A place in a text: the line, from one on, and how many octets of that line come before it. -/
structure Position where
  line : Nat
  column : Nat
  deriving DecidableEq, Repr

def Position.after (p : Position) (b : UInt8) : Position :=
  if b = 10 then ⟨p.line + 1, 0⟩ else ⟨p.line, p.column + 1⟩

def Position.behind (read : Bytes) : Position :=
  read.foldl Position.after ⟨1, 0⟩

/-- A cause and, in a text, how many octets were unread where it was found. -/
structure Fault where
  cause : Cause
  unread? : Option Nat

def Fault.before (m : Malformed) (rest : Bytes) : Fault :=
  ⟨.malformed m, some rest.length⟩

/-- A fault of the grammar at the first of the octets given, which counts as seen. -/
def Fault.peek (m : Malformed) (rest : Bytes) : Fault :=
  ⟨.malformed m, some (rest.length - 1)⟩

/-- A fault with no place of its own. -/
def Fault.of (cause : Cause) : Fault :=
  ⟨cause, none⟩

/-- Gives a fault that has no place the one in front of the octets given. -/
def Fault.locate (fault : Fault) (rest : Bytes) : Fault :=
  match fault.unread? with
  | some _ => fault
  | none => ⟨fault.cause, some rest.length⟩

def Fault.messageIn (fault : Fault) (text : Bytes) : String :=
  match fault.unread? with
  | none => fault.cause.message
  | some n =>
    let place := Position.behind (text.take (text.length - n))
    fault.cause.message ++ " at line " ++ toString place.line ++ " column " ++ toString place.column

/-- What is reported where the fault is a panic. -/
def Fault.crash? (fault : Fault) : Option String :=
  match fault.cause with
  | .crash report => some report
  | _ => none

def Fault.message (fault : Fault) : String :=
  fault.cause.message

end EventRelay.Json
