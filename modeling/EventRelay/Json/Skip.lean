import EventRelay.Json.Parser
/-!
# Passing over a value

Members that a record does not know are passed over. Only the outline of the value is checked:
numbers may be of any size, surrogates may stand alone, and there is no limit on depth.
-/

namespace EventRelay.Json

/-! ### Scalars -/

/-- Passes over a text whose opening quotation mark has been read. -/
def skipContent : Bytes → Except Fault Bytes
  | [] => .error (.before .eofText [])
  | b :: rest =>
    if b = 34 then .ok rest
    else if b = 92 then
      match rest with
      | [] => .error (.before .eofText [])
      | e :: rest =>
        if (shortEscape? e).isSome then skipContent rest
        else if e = 117 then
          match rest with
          | h₁ :: h₂ :: h₃ :: h₄ :: rest =>
            if (hexUnit? h₁ h₂ h₃ h₄).isSome then skipContent rest
            else .error (.before .invalidEscape rest)
          | _ => .error (.before .eofText [])
        else .error (.before .invalidEscape rest)
    else if b.toNat < 32 then .error (.before .controlCharacter (b :: rest))
    else skipContent rest

def skipExponent : Bytes → Except Fault Bytes
  | [] => .ok []
  | b :: rest =>
    if b = 101 || b = 69 then
      let rest := match rest with
        | s :: more => if s = 43 || s = 45 then more else rest
        | [] => []
      match rest with
      | [] => .error (.before .invalidNumber [])
      | d :: more =>
        if isDigit d then .ok (more.dropWhile isDigit) else .error (.before .invalidNumber more)
    else .ok (b :: rest)

def skipFraction : Bytes → Except Fault Bytes
  | [] => .ok []
  | b :: rest =>
    if b = 46 then
      match spanDigits rest with
      | ([], more) => .error (.peek .invalidNumber more)
      | (_, more) => skipExponent more
    else skipExponent (b :: rest)

def skipNumber : Bytes → Except Fault Bytes
  | [] => .error (.before .invalidNumber [])
  | d :: rest =>
    if d = 48 then
      match rest with
      | e :: _ => if isDigit e then .error (.peek .invalidNumber rest) else skipFraction rest
      | [] => .ok []
    else if isDigit d then skipFraction (rest.dropWhile isDigit)
    else .error (.before .invalidNumber rest)

/-! ### Values -/

mutual

def skipValue : (fuel : Nat) → Bytes → Except Fault Bytes
  | 0, bs => .error (.peek .recursionLimit bs)
  | fuel + 1, bs =>
    match skipSpace bs with
    | [] => .error (.before .eofValue [])
    | b :: rest =>
      if b = 110 then readWord [117, 108, 108] rest
      else if b = 116 then readWord [114, 117, 101] rest
      else if b = 102 then readWord [97, 108, 115, 101] rest
      else if b = 34 then skipContent rest
      else if b = 45 then skipNumber rest
      else if isDigit b then skipNumber (b :: rest)
      else if b = 91 then
        match skipSpace rest with
        | [] => .error (.before .eofArray [])
        | c :: more => if c = 93 then .ok more else skipItems fuel (c :: more)
      else if b = 123 then
        match skipSpace rest with
        | [] => .error (.before .eofObject [])
        | c :: more => if c = 125 then .ok more else skipMembers fuel (c :: more)
      else .error (.peek .expectedValue (b :: rest))

/-- Passes over at least one item and the closing bracket. -/
def skipItems : (fuel : Nat) → Bytes → Except Fault Bytes
  | 0, bs => .error (.peek .recursionLimit bs)
  | fuel + 1, bs =>
    match skipValue fuel bs with
    | .error e => .error e
    | .ok rest =>
      match skipSpace rest with
      | [] => .error (.before .eofArray [])
      | b :: rest =>
        if b = 44 then skipItems fuel rest
        else if b = 93 then .ok rest
        else .error (.peek .expectedCommaOrBracket (b :: rest))

/-- Passes over at least one member and the closing brace. -/
def skipMembers : (fuel : Nat) → Bytes → Except Fault Bytes
  | 0, bs => .error (.peek .recursionLimit bs)
  | fuel + 1, bs =>
    match skipSpace bs with
    | [] => .error (.before .eofObject [])
    | q :: rest =>
      if q ≠ 34 then .error (.peek .nameNotText (q :: rest))
      else match skipContent rest with
        | .error e => .error e
        | .ok rest =>
          match readColon rest with
          | .error e => .error e
          | .ok rest =>
            match skipValue fuel rest with
            | .error e => .error e
            | .ok rest =>
              match skipSpace rest with
              | [] => .error (.before .eofObject [])
              | b :: rest =>
                if b = 44 then skipMembers fuel rest
                else if b = 125 then .ok rest
                else .error (.peek .expectedCommaOrBrace (b :: rest))

end

end EventRelay.Json
