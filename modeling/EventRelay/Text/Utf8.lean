/-!
# UTF-8

Octets of text. `encode` writes characters as octets and `decode?` reads them back; a reader that
refuses also says how many octets of the text were well formed (`validLength`), which is what an
error message about a bad octet needs. Both sides are plain arithmetic on code points, so that the
round trip is a matter of division with remainder.

Main statement: `decode?_encode`, that reading what was written gives the same characters.
-/

namespace EventRelay

/-- A sequence of octets, as stored in a ledger row or received as a document. -/
abbrev Bytes := List UInt8

namespace Utf8

/-! ### Writing -/

/-- The octets of one character: one below `U+0080`, then two, three and four. -/
def encodeChar (c : Char) : Bytes :=
  let n := c.toNat
  if n < 0x80 then [UInt8.ofNat n]
  else if n < 0x800 then [UInt8.ofNat (0xC0 + n / 0x40), UInt8.ofNat (0x80 + n % 0x40)]
  else if n < 0x10000 then
    [UInt8.ofNat (0xE0 + n / 0x1000), UInt8.ofNat (0x80 + n / 0x40 % 0x40),
      UInt8.ofNat (0x80 + n % 0x40)]
  else
    [UInt8.ofNat (0xF0 + n / 0x40000), UInt8.ofNat (0x80 + n / 0x1000 % 0x40),
      UInt8.ofNat (0x80 + n / 0x40 % 0x40), UInt8.ofNat (0x80 + n % 0x40)]

def encode (cs : List Char) : Bytes :=
  cs.flatMap encodeChar

/-! ### Reading -/

def isTail (b : UInt8) : Bool :=
  0x80 ≤ b.toNat && b.toNat < 0xC0

/-- The code point `n`, unless it has a shorter form (it is below `least`), lies in the surrogate
range or lies above the last code point. -/
def scalar? (least n : Nat) : Option Char :=
  if h : n.isValidChar then
    if least ≤ n then some (Char.ofNatAux n h) else none
  else none

/-- Reads one character off the front; `none` when the octets there are no character. -/
def decodeChar? : Bytes → Option (Char × Bytes)
  | [] => none
  | a :: rest =>
    let x := a.toNat
    if x < 0x80 then (scalar? 0 x).map (·, rest)
    else if x < 0xC0 then none
    else match rest with
      | [] => none
      | b :: rest =>
        if !isTail b then none
        else if x < 0xE0 then
          (scalar? 0x80 ((x - 0xC0) * 0x40 + (b.toNat - 0x80))).map (·, rest)
        else match rest with
          | [] => none
          | c :: rest =>
            if !isTail c then none
            else if x < 0xF0 then
              (scalar? 0x800
                ((x - 0xE0) * 0x1000 + (b.toNat - 0x80) * 0x40 + (c.toNat - 0x80))).map (·, rest)
            else match rest with
              | [] => none
              | d :: rest =>
                if !isTail d then none
                else if x < 0xF8 then
                  (scalar? 0x10000
                    ((x - 0xF0) * 0x40000 + (b.toNat - 0x80) * 0x1000 + (c.toNat - 0x80) * 0x40
                      + (d.toNat - 0x80))).map (·, rest)
                else none

theorem length_of_decodeChar? {bs rest : Bytes} {c : Char} (h : decodeChar? bs = some (c, rest)) :
    rest.length < bs.length := by
  revert h
  fun_cases decodeChar? bs <;> intro h <;> simp_all <;> obtain ⟨_, _, _, rfl⟩ := h <;> omega

/-- The longest well-formed beginning of a text, in characters, with the octets after it. -/
def decodeWhile (bs : Bytes) : List Char × Bytes :=
  match h : decodeChar? bs with
  | none => ([], bs)
  | some (c, rest) =>
    have := length_of_decodeChar? h
    let (cs, left) := decodeWhile rest
    (c :: cs, left)
termination_by bs.length

/-- The characters of a text, if every octet belongs to one. -/
def decode? (bs : Bytes) : Option (List Char) :=
  match decodeWhile bs with
  | (cs, []) => some cs
  | (_, _ :: _) => none

/-- How many octets of the text come before the first that belongs to no character. -/
def validLength (bs : Bytes) : Nat :=
  bs.length - (decodeWhile bs).2.length

/-! ### Round trip -/

theorem scalar?_toNat {least : Nat} {c : Char} (h : least ≤ c.toNat) :
    scalar? least c.toNat = some c := by
  have hv : c.toNat.isValidChar := c.valid
  rw [scalar?, dif_pos hv, if_pos h]
  exact congrArg some (Char.ext rfl)

theorem decodeChar?_encodeChar (c : Char) (rest : Bytes) :
    decodeChar? (encodeChar c ++ rest) = some (c, rest) := by
  have hmax : c.toNat < 0x110000 := by
    have hv := c.valid
    simp only [UInt32.isValidChar, Nat.isValidChar] at hv
    change c.val.toNat < _
    omega
  simp only [encodeChar]
  split
  · rename_i h
    have hx : (UInt8.ofNat c.toNat).toNat = c.toNat := by simp; omega
    simp [decodeChar?, hx, h, scalar?_toNat]
  · split
    · rename_i h0 h1
      have ha : (UInt8.ofNat (0xC0 + c.toNat / 0x40)).toNat = 0xC0 + c.toNat / 0x40 := by
        simp; omega
      have hb : (UInt8.ofNat (0x80 + c.toNat % 0x40)).toNat = 0x80 + c.toNat % 0x40 := by
        simp; omega
      have hn : c.toNat / 0x40 * 0x40 + c.toNat % 0x40 = c.toNat := by omega
      simp only [List.cons_append, List.nil_append, decodeChar?, ha, hb, isTail]
      rw [if_neg (by omega), if_neg (by omega)]
      simp only [show decide (0x80 ≤ 0x80 + c.toNat % 0x40) = true by simp,
        show decide (0x80 + c.toNat % 0x40 < 0xC0) = true by simp; omega, Bool.and_self,
        Bool.not_true, Bool.false_eq_true, if_false]
      rw [if_pos (by omega), Nat.add_sub_cancel_left, Nat.add_sub_cancel_left, hn,
        scalar?_toNat (by omega)]
      rfl
    · split
      · rename_i h0 h1 h2
        have ha : (UInt8.ofNat (0xE0 + c.toNat / 0x1000)).toNat = 0xE0 + c.toNat / 0x1000 := by
          simp; omega
        have hb : (UInt8.ofNat (0x80 + c.toNat / 0x40 % 0x40)).toNat
            = 0x80 + c.toNat / 0x40 % 0x40 := by simp; omega
        have hc : (UInt8.ofNat (0x80 + c.toNat % 0x40)).toNat = 0x80 + c.toNat % 0x40 := by
          simp; omega
        have hn : c.toNat / 0x1000 * 0x1000 + c.toNat / 0x40 % 0x40 * 0x40 + c.toNat % 0x40
            = c.toNat := by omega
        simp only [List.cons_append, List.nil_append, decodeChar?, ha, hb, hc, isTail]
        rw [if_neg (by omega), if_neg (by omega)]
        simp only [show decide (0x80 ≤ 0x80 + c.toNat % 0x40) = true by simp,
          show decide (0x80 + c.toNat % 0x40 < 0xC0) = true by simp; omega,
          show decide (0x80 ≤ 0x80 + c.toNat / 0x40 % 0x40) = true by simp,
          show decide (0x80 + c.toNat / 0x40 % 0x40 < 0xC0) = true by simp; omega, Bool.and_self,
          Bool.not_true, Bool.false_eq_true, if_false]
        rw [if_neg (by omega), if_pos (by omega), Nat.add_sub_cancel_left, Nat.add_sub_cancel_left,
          Nat.add_sub_cancel_left, hn, scalar?_toNat (by omega)]
        rfl
      · rename_i h0 h1 h2
        have ha : (UInt8.ofNat (0xF0 + c.toNat / 0x40000)).toNat = 0xF0 + c.toNat / 0x40000 := by
          simp; omega
        have hb : (UInt8.ofNat (0x80 + c.toNat / 0x1000 % 0x40)).toNat
            = 0x80 + c.toNat / 0x1000 % 0x40 := by simp; omega
        have hc : (UInt8.ofNat (0x80 + c.toNat / 0x40 % 0x40)).toNat
            = 0x80 + c.toNat / 0x40 % 0x40 := by simp; omega
        have hd : (UInt8.ofNat (0x80 + c.toNat % 0x40)).toNat = 0x80 + c.toNat % 0x40 := by
          simp; omega
        have hn : c.toNat / 0x40000 * 0x40000 + c.toNat / 0x1000 % 0x40 * 0x1000
            + c.toNat / 0x40 % 0x40 * 0x40 + c.toNat % 0x40 = c.toNat := by omega
        simp only [List.cons_append, List.nil_append, decodeChar?, ha, hb, hc, hd, isTail]
        rw [if_neg (by omega), if_neg (by omega)]
        simp only [show decide (0x80 ≤ 0x80 + c.toNat % 0x40) = true by simp,
          show decide (0x80 + c.toNat % 0x40 < 0xC0) = true by simp; omega,
          show decide (0x80 ≤ 0x80 + c.toNat / 0x40 % 0x40) = true by simp,
          show decide (0x80 + c.toNat / 0x40 % 0x40 < 0xC0) = true by simp; omega,
          show decide (0x80 ≤ 0x80 + c.toNat / 0x1000 % 0x40) = true by simp,
          show decide (0x80 + c.toNat / 0x1000 % 0x40 < 0xC0) = true by simp; omega, Bool.and_self,
          Bool.not_true, Bool.false_eq_true, if_false]
        rw [if_neg (by omega), if_neg (by omega), if_pos (by omega), Nat.add_sub_cancel_left,
          Nat.add_sub_cancel_left, Nat.add_sub_cancel_left, Nat.add_sub_cancel_left, hn,
          scalar?_toNat (by omega)]
        rfl

theorem decodeWhile_encode (cs : List Char) : decodeWhile (encode cs) = (cs, []) := by
  induction cs with
  | nil => rw [decodeWhile]; rfl
  | cons c cs ih =>
    rw [decodeWhile]
    have h : decodeChar? (encode (c :: cs)) = some (c, encode cs) :=
      decodeChar?_encodeChar c (encode cs)
    split
    · simp_all
    · rename_i c' rest h'
      rw [h] at h'
      cases h'
      simp [ih]

/-- **Round trip.** Text written as octets reads back as the same text. -/
theorem decode?_encode (cs : List Char) : decode? (encode cs) = some cs := by
  simp [decode?, decodeWhile_encode]

end Utf8

def Bytes.ofString (s : String) : Bytes :=
  Utf8.encode s.toList

/-- The string that the octets spell, if they are well formed. -/
def Bytes.toString? (bs : Bytes) : Option String :=
  (Utf8.decode? bs).map String.ofList

@[simp]
theorem Bytes.toString?_ofString (s : String) : Bytes.toString? (Bytes.ofString s) = some s := by
  simp [Bytes.toString?, Bytes.ofString, Utf8.decode?_encode]

end EventRelay
