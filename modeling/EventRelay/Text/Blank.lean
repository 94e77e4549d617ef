/-!
# Blank characters

The characters of the Unicode property `White_Space`, and removing them from both ends of a text.
Documents, date texts and duration texts all skip the same set; the blanks inside a JSON document
are a smaller set and belong to that format.
-/

namespace EventRelay.Text

/-- The code points with the property `White_Space`, as closed ranges. -/
def blankRanges : List (Nat × Nat) :=
  [(0x09, 0x0D), (0x20, 0x20), (0x85, 0x85), (0xA0, 0xA0), (0x1680, 0x1680), (0x2000, 0x200A),
    (0x2028, 0x2029), (0x202F, 0x202F), (0x205F, 0x205F), (0x3000, 0x3000)]

/-- Whether a character has the property `White_Space`. -/
def isBlank (c : Char) : Bool :=
  blankRanges.any fun (low, high) => low ≤ c.toNat && c.toNat ≤ high

def trimStart (cs : List Char) : List Char :=
  cs.dropWhile isBlank

def isAllBlank (s : String) : Bool :=
  s.toList.all isBlank

end EventRelay.Text
