import EventRelay.Event
/-!
# Fresh events

An event that is given no identifier gets a random one, 128 bits in the customary grouping of
32 hexadecimal digits, and happens now. Identifiers whose order is that of their making begin with
the time and are written with 32 different characters.
-/

namespace EventRelay

/-- The lowest `count` hexadecimal digits of a number, in lower case. -/
def hexGroup (count n : Nat) : List Char :=
  (List.range count).reverse.map fun i => Nat.digitChar (n / Nat.pow 16 i % 16)

/-- The identifier made of random bits: the digit that tells the version is 4, and the two bits that
tell the variant are 10. -/
def randomIdentifier (bits : Nat) : String :=
  let dash := ['-']
  String.ofList <|
    hexGroup 8 (bits / pow2 96) ++ dash ++ hexGroup 4 (bits / pow2 80) ++ dash
      ++ '4' :: hexGroup 3 (bits / pow2 64) ++ dash
      ++ hexGroup 1 (8 + bits / pow2 60 % 4) ++ hexGroup 3 (bits / pow2 48) ++ dash
      ++ hexGroup 12 bits

/-- An event with a random identifier that happens now. -/
def Event.fresh (bits : Nat) (now : Instant) (eventType : String) (payload : Json) : Event :=
  ⟨randomIdentifier bits, eventType, payload, now, none⟩

/-- The characters of sortable identifiers: digits and capitals, without those that look like
digits, and without the letter U. -/
def sortableAlphabet : List Char :=
  "0123456789ABCDEFGHJKMNPQRSTVWXYZ".toList

/-- The sortable identifier of a time in milliseconds, of which 48 bits count, and of 80 random
bits. -/
def sortableIdentifier (millis bits : Nat) : String :=
  let n := millis % pow2 48 * pow2 80 + bits % pow2 80
  String.ofList <|
    (List.range 26).reverse.map fun i => sortableAlphabet[n / Nat.pow 32 i % 32]?.getD '0'

end EventRelay
