import EventRelay.Json.Skip
/-!
# Typed reading

A `Reader` reads one type of value from two kinds of source: from text, where faults have places and
the first fault met in reading order counts, and from a value that is in memory, whose members come
in the order of their names. Readers of records are put together from readers of their fields.

Main definitions: `Reader.scalar`, `Reader.optional`, `Reader.sequence`, `Reader.choice`,
`Reader.record`; and the entry points `Reader.parse` and `Reader.ofJson`.
-/

namespace EventRelay.Json

/-- Reads values of one type. From text, `room` bounds the arrays and objects open at once, and the
octets that follow the value are given back. -/
structure Reader (α : Type) where
  fromText : (room : Nat) → Bytes → Except Fault (α × Bytes)
  fromValue : Json → Except Cause α

namespace Reader

def parse {α : Type} (r : Reader α) (bs : Bytes) : Except Fault α := do
  let (a, rest) ← r.fromText depthLimit bs
  readEnd rest
  return a

def ofJson {α : Type} (r : Reader α) (value : Json) : Except Fault α :=
  (r.fromValue value).mapError .of

def map {α β : Type} (f : α → β) (r : Reader α) : Reader β where
  fromText room bs := (r.fromText room bs).map fun (a, rest) => (f a, rest)
  fromValue value := (r.fromValue value).map f

def json : Reader Json where
  fromText room bs := readValue (fuelFor bs) room bs
  fromValue value := .ok value

/-! ### Scalars -/

/-- What a value is called when it was not wanted. -/
def found : Json → Found
  | .null => .null
  | .bool b => .bool b
  | .integer i => .integer i
  | .float x => .float x
  | .text s => .text s
  | .array _ => .sequence
  | .object _ => .map

def opening? (bs : Bytes) : Option Found :=
  match bs with
  | b :: _ => if b = 91 then some .sequence else if b = 123 then some .map else none
  | [] => none

/-- Reads a value that is neither array nor object and hands it to `accept`. A fault of `accept` is
placed behind the value. -/
def scalar {α : Type} (expected : String) (accept : Json → Except Cause α) : Reader α where
  fromText room bs :=
    let bs := skipSpace bs
    match opening? bs with
    | some opened => .error ((Fault.of (.invalidType opened expected)).locate bs)
    | none =>
      match readValue (fuelFor bs) room bs with
      | .error e => .error e
      | .ok (value, rest) =>
        match accept value with
        | .ok a => .ok (a, rest)
        | .error cause => .error ((Fault.of cause).locate rest)
  fromValue value :=
    match value with
    | .array _ => .error (.invalidType .sequence expected)
    | .object _ => .error (.invalidType .map expected)
    | value => accept value

/-- A text for which `accept` finds a meaning. -/
def textWith {α : Type} (expected : String) (accept : String → Except Cause α) : Reader α :=
  scalar expected fun value =>
    match value with
    | .text s => accept s
    | value => .error (.invalidType (found value) expected)

def string : Reader String :=
  textWith "a string" .ok

/-- A whole number between two bounds. -/
def integer (expected : String) (low high : Int) : Reader Int :=
  scalar expected fun value =>
    match value with
    | .integer i =>
      if low ≤ i ∧ i ≤ high then .ok i else .error (.invalidValue (.integer i) expected)
    | value => .error (.invalidType (found value) expected)

/-- A natural number of at most the given number of bits. -/
def unsigned (expected : String) (bits : Nat) : Reader Nat :=
  (integer expected 0 (pow2 bits - 1 : Nat)).map Int.toNat

/-- A double; whole numbers are rounded to one. -/
def double : Reader Float :=
  scalar "f64" fun value =>
    match value with
    | .float x => .ok x
    | .integer i =>
      let x := i.natAbs.toUInt64.toFloat
      .ok (if i < 0 then -x else x)
    | value => .error (.invalidType (found value) "f64")

def boolean : Reader Bool :=
  scalar "a boolean" fun value =>
    match value with
    | .bool b => .ok b
    | value => .error (.invalidType (found value) "a boolean")

/-- Null stands for absence. -/
def optional {α : Type} (r : Reader α) : Reader (Option α) where
  fromText room bs :=
    match skipSpace bs with
    | b :: rest =>
      if b = 110 then (readWord [117, 108, 108] rest).map (none, ·)
      else (r.fromText room (b :: rest)).map fun (a, rest) => (some a, rest)
    | [] => (r.fromText room []).map fun (a, rest) => (some a, rest)
  fromValue value :=
    match value with
    | .null => .ok none
    | value => (r.fromValue value).map some

/-! ### Arrays -/

/-- In front of the next item of an array: what follows if there is one, `none` at the closing
bracket. -/
def nextItem (first : Bool) (bs : Bytes) : Except Fault (Option Bytes) :=
  match skipSpace bs with
  | [] => .error (.before .eofArray [])
  | b :: rest =>
    if b = 93 then .ok none
    else if first then .ok (some (b :: rest))
    else if b = 44 then
      match skipSpace rest with
      | [] => .error (.before .eofValue [])
      | c :: more =>
        if c = 93 then .error (.peek .trailingComma (c :: more)) else .ok (some (c :: more))
    else .error (.peek .expectedCommaOrBracket (b :: rest))

/-- Reads the closing bracket, when no further item is wanted. Where the array was refused already,
that fault stands, placed behind the bracket if there is one. -/
def closeArray {α : Type} (result : Except Fault α × Bytes) : Except Fault (α × Bytes) :=
  let (outcome, bs) := result
  let bs := skipSpace bs
  match outcome, bs with
  | .ok a, b :: rest =>
    if b = 93 then .ok (a, rest)
    else if b = 44 then
      match skipSpace rest with
      | c :: more =>
        if c = 93 then .error (.peek .trailingComma (c :: more))
        else .error (.peek .trailingCharacters (c :: more))
      | [] => .error (.before .trailingCharacters [])
    else .error (.peek .trailingCharacters (b :: rest))
  | .ok _, [] => .error (.before .eofArray [])
  | .error e, b :: rest =>
    if b = 93 then .error (e.locate rest)
    else if b = 44 then .error (e.locate (skipSpace rest))
    else .error (e.locate (b :: rest))
  | .error e, [] => .error (e.locate [])

/-- Reads the items of an array; `acc` holds those already read, last one first. The octets given
back with a fault are those at which the array was left. -/
def items {α : Type} (r : Reader α) (room : Nat) :
    (fuel : Nat) → (acc : List α) → Bytes → Except Fault (List α) × Bytes
  | 0, _, bs => (.error (.peek .recursionLimit bs), bs)
  | fuel + 1, acc, bs =>
    match nextItem acc.isEmpty bs with
    | .error e => (.error e, bs)
    | .ok none => (.ok acc.reverse, bs)
    | .ok (some bs) =>
      match r.fromText room bs with
      | .error e => (.error e, bs)
      | .ok (a, rest) => items r room fuel (a :: acc) rest

def sequence {α : Type} (r : Reader α) : Reader (List α) where
  fromText room bs :=
    match skipSpace bs with
    | [] => .error (.before .eofValue [])
    | b :: rest =>
      if b = 91 then
        if room ≤ 1 then .error (.peek .recursionLimit (b :: rest))
        else closeArray (items r (room - 1) (fuelFor rest) [] rest)
      else (scalar "a sequence" fun value =>
        .error (.invalidType (found value) "a sequence")).fromText room (b :: rest)
  fromValue value :=
    match value with
    | .array xs => xs.mapM r.fromValue
    | value => .error (.invalidType (found value) "a sequence")

/-! ### Choices -/

/-- The alternative of a name, or a complaint that lists the known names. -/
def choose {α : Type} (alternatives : List (String × α)) (name : String) : Except Cause α :=
  match alternatives.lookup name with
  | some a => .ok a
  | none => .error (.unknownVariant name (alternatives.map Prod.fst))

def unit : Reader Unit :=
  scalar "unit" fun value =>
    match value with
    | .null => .ok ()
    | value => .error (.invalidType (found value) "unit")

def onlyName (bs : Bytes) : Except Fault Bytes :=
  match skipSpace bs with
  | [] => .error (.before .eofObject [])
  | b :: rest =>
    if b = 34 then .ok (b :: rest)
    else if b = 125 then .error (.peek .expectedValue (b :: rest))
    else .error (.peek .nameNotText (b :: rest))

/-- One of several names: as a text, or as the only member, with value null, of an object. -/
def choice {α : Type} (alternatives : List (String × α)) : Reader α where
  fromText room bs :=
    match skipSpace bs with
    | [] => .error (.before .eofValue [])
    | b :: rest =>
      if b = 34 then (textWith "variant identifier" (choose alternatives)).fromText room (b :: rest)
      else if b = 123 then
        if room ≤ 1 then .error (.peek .recursionLimit (b :: rest))
        else do
          let rest ← onlyName rest
          let (a, rest) ←
            (textWith "variant identifier" (choose alternatives)).fromText (room - 1) rest
          let rest ← readColon rest
          let (_, rest) ← unit.fromText (room - 1) rest
          match skipSpace rest with
          | [] => throw (.before .eofObject [])
          | c :: more =>
            if c = 125 then return (a, more) else throw (.before .expectedValue (c :: more))
      else .error (.peek .expectedValue (b :: rest))
  fromValue value :=
    match value with
    | .text s => choose alternatives s
    | .object [(name, content)] => do
      let a ← choose alternatives name
      unit.fromValue content
      return a
    | .object _ => .error (.invalidValue .map "map with a single key")
    | value => .error (.invalidType (found value) "string or map")

/-! ### Records -/

/-- A field of a record of type `σ`: its name, how its value is put into the record, and whether it
has to be there. -/
structure Field (σ : Type) where
  name : String
  reader : Reader (σ → σ)
  required : Bool

/-- A field that holds the value read. -/
def field {σ α : Type} (name : String) (reader : Reader α) (set : α → σ → σ)
    (required : Bool) : Field σ :=
  ⟨name, reader.map set, required⟩

/-- The shape of a record: what it is called, its fields in order, what the fields hold that are not
given, and whether an array may leave out fields at its end. -/
structure Shape (σ : Type) where
  name : String
  start : σ
  fields : List (Field σ)
  openEnded : Bool

namespace Shape

variable {σ : Type}

def expected (shape : Shape σ) : String :=
  "struct " ++ shape.name

/-- The first required field that was not given. -/
def missing? (shape : Shape σ) (seen : List String) : Option String :=
  (shape.fields.find? fun f => f.required && !seen.contains f.name).map Field.name

/-- The record, if no required field is missing. -/
def finish (shape : Shape σ) (seen : List String) (record : σ) : Except Cause σ :=
  match shape.missing? seen with
  | some name => .error (.missingField name)
  | none => .ok record

def find? (shape : Shape σ) (name : String) : Option (Field σ) :=
  shape.fields.find? fun f => f.name = name

/-- What is wrong with an array of only `n` items. -/
def tooShort (shape : Shape σ) (n : Nat) : Cause :=
  .invalidLength n (shape.expected ++ " with " ++ toString shape.fields.length ++ " elements")

/-! #### From values -/

/-- Takes over the members of an object in their order. -/
def membersFromValue (shape : Shape σ) :
    (seen : List String) → σ → List (String × Json) → Except Cause σ
  | seen, record, [] => shape.finish seen record
  | seen, record, (name, value) :: rest =>
    match shape.find? name with
    | none => membersFromValue shape seen record rest
    | some f =>
      if seen.contains name then .error (.duplicateField name)
      else match f.reader.fromValue value with
        | .error e => .error e
        | .ok set => membersFromValue shape (name :: seen) (set record) rest

/-- Takes over the items of an array, field by field; `n` of them have been taken. -/
def itemsFromValue (shape : Shape σ) :
    (n : Nat) → List (Field σ) → σ → List Json → Except Cause σ
  | _, [], record, [] => .ok record
  | n, [], _, rest => .error (.invalidLength (n + rest.length) "fewer elements in array")
  | n, _ :: fields, record, [] =>
    if shape.openEnded then itemsFromValue shape n fields record []
    else .error (shape.tooShort n)
  | n, f :: fields, record, value :: rest =>
    match f.reader.fromValue value with
    | .error e => .error e
    | .ok set => itemsFromValue shape (n + 1) fields (set record) rest

/-! #### From text -/

/-- Reads the items of an array, field by field. The octets given back with a fault are those at
which the array was left. -/
def itemsFromText (shape : Shape σ) (room : Nat) :
    (n : Nat) → List (Field σ) → σ → Bytes → Except Fault σ × Bytes
  | _, [], record, bs => (.ok record, bs)
  | n, f :: fields, record, bs =>
    match nextItem (n = 0) bs with
    | .error e => (.error e, bs)
    | .ok none =>
      if shape.openEnded then (.ok record, bs)
      else (.error (.of (shape.tooShort n)), bs)
    | .ok (some bs) =>
      match f.reader.fromText room bs with
      | .error e => (.error e, bs)
      | .ok (set, rest) => itemsFromText shape room (n + 1) fields (set record) rest

/-- In front of the next name of an object: what follows its opening quotation mark, `none` at the
closing brace. -/
def nextName (first : Bool) (bs : Bytes) : Except Fault (Option Bytes) :=
  match skipSpace bs with
  | [] => .error (.before .eofObject [])
  | b :: rest =>
    if b = 125 then .ok none
    else if first then
      if b = 34 then .ok (some rest) else .error (.peek .nameNotText (b :: rest))
    else if b = 44 then
      match skipSpace rest with
      | [] => .error (.before .eofValue [])
      | c :: more =>
        if c = 34 then .ok (some more)
        else if c = 125 then .error (.peek .trailingComma (c :: more))
        else .error (.peek .nameNotText (c :: more))
    else .error (.peek .expectedCommaOrBrace (b :: rest))

/-- Reads the members of an object. The octets given back with a fault are those at which the object
was left. -/
def membersFromText (shape : Shape σ) (room : Nat) :
    (fuel : Nat) → (first : Bool) → (seen : List String) → σ → Bytes → Except Fault σ × Bytes
  | 0, _, _, _, bs => (.error (.peek .recursionLimit bs), bs)
  | fuel + 1, first, seen, record, bs =>
    match nextName first bs with
    | .error e => (.error e, bs)
    | .ok none => ((shape.finish seen record).mapError .of, bs)
    | .ok (some bs) =>
      match readText bs with
      | .error e => (.error e, bs)
      | .ok (name, rest) =>
        match shape.find? name with
        | none =>
          match readColon rest with
          | .error e => (.error e, rest)
          | .ok rest =>
            match skipValue (fuelFor rest) rest with
            | .error e => (.error e, rest)
            | .ok rest => membersFromText shape room fuel false seen record rest
        | some f =>
          if seen.contains name then (.error (.of (.duplicateField name)), rest)
          else match readColon rest with
            | .error e => (.error e, rest)
            | .ok rest =>
              match f.reader.fromText room rest with
              | .error e => (.error e, rest)
              | .ok (set, rest) =>
                membersFromText shape room fuel false (name :: seen) (set record) rest

/-- Reads the closing brace. Where the object was refused already, that fault stands, placed behind
the brace if there is one. -/
def closeObject (result : Except Fault σ × Bytes) : Except Fault (σ × Bytes) :=
  let (outcome, bs) := result
  let bs := skipSpace bs
  match outcome, bs with
  | .ok a, b :: rest =>
    if b = 125 then .ok (a, rest)
    else if b = 44 then .error (.peek .trailingComma (b :: rest))
    else .error (.peek .trailingCharacters (b :: rest))
  | .ok _, [] => .error (.before .eofObject [])
  | .error e, b :: rest => .error (e.locate (if b = 125 then rest else b :: rest))
  | .error e, [] => .error (e.locate [])

/-- Reads the record from an object, or from an array of its fields in order. -/
def reader (shape : Shape σ) : Reader σ where
  fromText room bs :=
    match skipSpace bs with
    | [] => .error (.before .eofValue [])
    | b :: rest =>
      if b = 91 then
        if room ≤ 1 then .error (.peek .recursionLimit (b :: rest))
        else closeArray (shape.itemsFromText (room - 1) 0 shape.fields shape.start rest)
      else if b = 123 then
        if room ≤ 1 then .error (.peek .recursionLimit (b :: rest))
        else
          closeObject (shape.membersFromText (room - 1) (fuelFor rest) true [] shape.start rest)
      else (scalar shape.expected fun value =>
        .error (.invalidType (found value) shape.expected)).fromText room (b :: rest)
  fromValue value :=
    match value with
    | .array xs => shape.itemsFromValue 0 shape.fields shape.start xs
    | .object members => shape.membersFromValue [] shape.start members
    | value => .error (.invalidType (found value) shape.expected)

end Shape

end Reader

end EventRelay.Json
