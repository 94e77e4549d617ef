import EventRelay.Json.Numeral
/-!
# Reading JSON text

Documents are read octet by octet, strictly by RFC 8259. `parse` reads a whole document with at
most 127 arrays and objects open at once; `parseDeep` has no such limit. Each reader takes the
octets in front of it and returns the value together with the octets that follow.

The octets between the quotation marks of a text are gathered first, escapes replaced by what they
stand for, and checked to be well formed afterwards.
-/

namespace EventRelay.Json

/-! ### Blanks and fixed words -/

/-- Space, tab, line feed and carriage return. -/
def isSpace (b : UInt8) : Bool :=
  b = 32 || b = 9 || b = 10 || b = 13

def skipSpace (bs : Bytes) : Bytes :=
  bs.dropWhile isSpace

def readWord : (word : Bytes) → Bytes → Except Fault Bytes
  | [], bs => .ok bs
  | _ :: _, [] => .error (.before .eofValue [])
  | w :: word, b :: rest =>
    if b = w then readWord word rest else .error (.before .expectedLiteral rest)

/-! ### Texts -/

def hexValue? (b : UInt8) : Option Nat :=
  let n := b.toNat
  if 48 ≤ n ∧ n ≤ 57 then some (n - 48)
  else if 97 ≤ n ∧ n ≤ 102 then some (n - 87)
  else if 65 ≤ n ∧ n ≤ 70 then some (n - 55)
  else none

/-- The number that four hexadecimal digits spell. -/
def hexUnit? (a b c d : UInt8) : Option Nat := do
  let a ← hexValue? a
  let b ← hexValue? b
  let c ← hexValue? c
  let d ← hexValue? d
  return ((a * 16 + b) * 16 + c) * 16 + d

def shortEscape? (b : UInt8) : Option UInt8 :=
  if b = 34 then some 34
  else if b = 92 then some 92
  else if b = 47 then some 47
  else if b = 98 then some 8
  else if b = 102 then some 12
  else if b = 110 then some 10
  else if b = 114 then some 13
  else if b = 116 then some 9
  else none

/-- The octets of a code point that is no surrogate, last octet first. -/
def unitOctets (n : Nat) : Bytes :=
  (Utf8.encodeChar (Char.ofNat n)).reverse

/-- Gathers the octets of a text up to its closing quotation mark; `acc` holds those already
gathered, last octet first. -/
def readContent (acc : Bytes) : Bytes → Except Fault (Bytes × Bytes)
  | [] => .error (.before .eofText [])
  | b :: rest =>
    if b = 34 then .ok (acc.reverse, rest)
    else if b = 92 then
      match rest with
      | [] => .error (.before .eofText [])
      | e :: rest =>
        match shortEscape? e with
        | some octet => readContent (octet :: acc) rest
        | none =>
          if e = 117 then
            match rest with
            | h₁ :: h₂ :: h₃ :: h₄ :: rest =>
              match hexUnit? h₁ h₂ h₃ h₄ with
              | none => .error (.before .invalidEscape rest)
              | some high =>
                if 0xDC00 ≤ high ∧ high < 0xE000 then .error (.before .loneSurrogate rest)
                else if 0xD800 ≤ high ∧ high < 0xDC00 then
                  match rest with
                  | [] => .error (.before .eofText [])
                  | x :: rest =>
                    if x ≠ 92 then .error (.before .endOfHexEscape rest)
                    else match rest with
                      | [] => .error (.before .eofText [])
                      | y :: rest =>
                        if y ≠ 117 then .error (.before .endOfHexEscape rest)
                        else match rest with
                          | l₁ :: l₂ :: l₃ :: l₄ :: rest =>
                            match hexUnit? l₁ l₂ l₃ l₄ with
                            | none => .error (.before .invalidEscape rest)
                            | some low =>
                              if 0xDC00 ≤ low ∧ low < 0xE000 then
                                readContent
                                  (unitOctets
                                    ((high - 0xD800) * 0x400 + (low - 0xDC00) + 0x10000) ++ acc)
                                  rest
                              else .error (.before .loneSurrogate rest)
                          | _ => .error (.before .eofText [])
                else readContent (unitOctets high ++ acc) rest
            | _ => .error (.before .eofText [])
          else .error (.before .invalidEscape rest)
    else if b.toNat < 32 then .error (.before .controlCharacter rest)
    else readContent (b :: acc) rest

/-- Reads a text whose opening quotation mark has been read. A content that is not well formed is
refused with the place counted back from the closing quotation mark, by the octets gathered from
the first bad one on. -/
def readText (bs : Bytes) : Except Fault (String × Bytes) := do
  let (content, rest) ← readContent [] bs
  match Utf8.decode? content with
  | some cs => return (String.ofList cs, rest)
  | none =>
    let refused := content.length - Utf8.validLength content
    throw ⟨.malformed .invalidCodePoint, some (rest.length + refused)⟩

/-! ### Values -/

def readColon (bs : Bytes) : Except Fault Bytes :=
  match skipSpace bs with
  | [] => .error (.before .eofObject [])
  | b :: rest => if b = 58 then .ok rest else .error (.peek .expectedColon (b :: rest))

mutual

/-- Reads a value. At most `room - 1` arrays and objects may be open inside each other; `fuel`
bounds the number of steps. -/
def readValue : (fuel room : Nat) → Bytes → Except Fault (Json × Bytes)
  | 0, _, bs => .error (.peek .recursionLimit bs)
  | fuel + 1, room, bs =>
    match skipSpace bs with
    | [] => .error (.before .eofValue [])
    | b :: rest =>
      if b = 110 then (readWord [117, 108, 108] rest).map (.null, ·)
      else if b = 116 then (readWord [114, 117, 101] rest).map (.bool true, ·)
      else if b = 102 then (readWord [97, 108, 115, 101] rest).map (.bool false, ·)
      else if b = 34 then (readText rest).map fun (s, rest) => (.text s, rest)
      else if b = 45 || isDigit b then readNumber (b :: rest)
      else if b = 91 then
        if room ≤ 1 then .error (.peek .recursionLimit (b :: rest))
        else readItems fuel (room - 1) true [] rest
      else if b = 123 then
        if room ≤ 1 then .error (.peek .recursionLimit (b :: rest))
        else readMembers fuel (room - 1) true [] rest
      else .error (.peek .expectedValue (b :: rest))

/-- Reads the items of an array up to its closing bracket; `acc` holds the items already read, last
one first. -/
def readItems :
    (fuel room : Nat) → (first : Bool) → (acc : List Json) → Bytes → Except Fault (Json × Bytes)
  | 0, _, _, _, bs => .error (.peek .recursionLimit bs)
  | fuel + 1, room, first, acc, bs =>
    match skipSpace bs with
    | [] => .error (.before .eofArray [])
    | b :: rest =>
      if b = 93 then .ok (.array acc.reverse, rest)
      else if first then
        match readValue fuel room (b :: rest) with
        | .error e => .error e
        | .ok (item, rest) => readItems fuel room false (item :: acc) rest
      else if b = 44 then
        match skipSpace rest with
        | [] => .error (.before .eofValue [])
        | c :: more =>
          if c = 93 then .error (.peek .trailingComma (c :: more))
          else
            match readValue fuel room (c :: more) with
            | .error e => .error e
            | .ok (item, rest) => readItems fuel room false (item :: acc) rest
      else .error (.peek .expectedCommaOrBracket (b :: rest))

/-- Reads the members of an object up to its closing brace; `acc` holds the members already read in
their order. -/
def readMembers :
    (fuel room : Nat) → (first : Bool) → (acc : List (String × Json)) → Bytes →
      Except Fault (Json × Bytes)
  | 0, _, _, _, bs => .error (.peek .recursionLimit bs)
  | fuel + 1, room, first, acc, bs =>
    match skipSpace bs with
    | [] => .error (.before .eofObject [])
    | b :: rest =>
      if b = 125 then .ok (.object acc, rest)
      else if first then
        if b = 34 then readMember fuel room acc rest
        else .error (.peek .nameNotText (b :: rest))
      else if b = 44 then
        match skipSpace rest with
        | [] => .error (.before .eofValue [])
        | c :: more =>
          if c = 34 then readMember fuel room acc more
          else if c = 125 then .error (.peek .trailingComma (c :: more))
          else .error (.peek .nameNotText (c :: more))
      else .error (.peek .expectedCommaOrBrace (b :: rest))

/-- Reads a member, the opening quotation mark of whose name has been read, and what follows it up
to the closing brace. -/
def readMember :
    (fuel room : Nat) → (acc : List (String × Json)) → Bytes → Except Fault (Json × Bytes)
  | 0, _, _, bs => .error (.peek .recursionLimit bs)
  | fuel + 1, room, acc, bs =>
    match readText bs with
    | .error e => .error e
    | .ok (name, rest) =>
      match readColon rest with
      | .error e => .error e
      | .ok rest =>
        match readValue fuel room rest with
        | .error e => .error e
        | .ok (value, rest) => readMembers fuel room false (insert name value acc) rest

end

/-! ### Documents -/

/-- Steps enough for any value in front of the octets given: each octet is looked at by at most
three readers. -/
def fuelFor (bs : Bytes) : Nat :=
  3 * bs.length + 3

/-- How many arrays and objects may be open, one more than is allowed. -/
def depthLimit : Nat := 128

/-- Only blanks may follow a document. -/
def readEnd (bs : Bytes) : Except Fault Unit :=
  match skipSpace bs with
  | [] => .ok ()
  | b :: rest => .error (.peek .trailingCharacters (b :: rest))

/-- Reads a document with fewer than `room` arrays and objects open at once. -/
def parseWithin (room : Nat) (bs : Bytes) : Except Fault Json := do
  let (value, rest) ← readValue (fuelFor bs) room bs
  readEnd rest
  return value

def parse (bs : Bytes) : Except Fault Json :=
  parseWithin depthLimit bs

def parseDeep (bs : Bytes) : Except Fault Json :=
  parseWithin (bs.length + 2) bs

end EventRelay.Json
