import EventRelay.Json.Parser
import EventRelay.Json.Printer

/-!
# Texts read back

The octets between the quotation marks of a written text are gathered to the octets of the text
itself: a character stands for its octets or, where it has to be escaped, for an escape that stands
for them.  `readText_flatMap` says that a written text is read back, whatever follows it.
-/

namespace EventRelay

namespace Utf8

theorem encode_append (cs ds : List Char) : encode (cs ++ ds) = encode cs ++ encode ds :=
  List.flatMap_append

theorem encode_cons (c : Char) (cs : List Char) : encode (c :: cs) = encodeChar c ++ encode cs :=
  List.flatMap_cons

theorem encodeChar_of_lt {c : Char} (h : c.toNat < 0x80) : encodeChar c = [UInt8.ofNat c.toNat] := by
  simp [encodeChar, h]

theorem le_of_mem_encodeChar {c : Char} (h : 0x80 ≤ c.toNat) {b : UInt8} (hb : b ∈ encodeChar c) :
    0x80 ≤ b.toNat := by
  have hmax : c.toNat < 0x110000 := by
    have hv := c.valid
    simp only [UInt32.isValidChar, Nat.isValidChar] at hv
    change c.val.toNat < _
    omega
  simp only [encodeChar] at hb
  split at hb
  · omega
  · split at hb
    · simp only [List.mem_cons, List.not_mem_nil, or_false] at hb
      rcases hb with rfl | rfl <;> simp <;> omega
    · split at hb
      · simp only [List.mem_cons, List.not_mem_nil, or_false] at hb
        rcases hb with rfl | rfl | rfl <;> simp <;> omega
      · simp only [List.mem_cons, List.not_mem_nil, or_false] at hb
        rcases hb with rfl | rfl | rfl | rfl <;> simp <;> omega

end Utf8

namespace Json

/-! ### Octets that stand for themselves -/

theorem readContent_cons {b : UInt8} (acc rest : Bytes) (hquote : b ≠ 34) (hslash : b ≠ 92)
    (hcontrol : 32 ≤ b.toNat) : readContent acc (b :: rest) = readContent (b :: acc) rest := by
  rw [readContent.eq_def]
  simp only [hquote, hslash, if_false, if_neg (Nat.not_lt.mpr hcontrol)]

theorem readContent_append {bs : Bytes} (h : ∀ b ∈ bs, 0x80 ≤ b.toNat) (acc rest : Bytes) :
    readContent acc (bs ++ rest) = readContent (bs.reverse ++ acc) rest := by
  induction bs generalizing acc with
  | nil => rfl
  | cons b bs ih =>
    have hb := h b (List.mem_cons_self ..)
    have hquote : b ≠ 34 := by
      rintro rfl
      exact absurd hb (by decide)
    have hslash : b ≠ 92 := by
      rintro rfl
      exact absurd hb (by decide)
    rw [List.cons_append, readContent_cons acc _ hquote hslash (by omega),
      ih fun b' hb' => h b' (List.mem_cons_of_mem _ hb')]
    simp

/-! ### Escapes -/

theorem readContent_escape {e octet : UInt8} (acc rest : Bytes) (h : shortEscape? e = some octet) :
    readContent acc (92 :: e :: rest) = readContent (octet :: acc) rest := by
  rw [readContent.eq_def]
  simp [h]

theorem hexValue?_hexChar {n : Nat} (h : n < 16) :
    (hexChar n).toNat < 0x80 ∧ hexValue? (UInt8.ofNat (hexChar n).toNat) = some n := by
  have hall : ∀ n < 16,
      (hexChar n).toNat < 0x80 ∧ hexValue? (UInt8.ofNat (hexChar n).toNat) = some n := by decide
  exact hall n h

theorem readContent_control {c : Char} (acc rest : Bytes) (h : c.toNat < 32) :
    readContent acc (Utf8.encode ['\\', 'u', '0', '0', hexChar (c.toNat / 16),
        hexChar (c.toNat % 16)] ++ rest) =
      readContent ((Utf8.encodeChar c).reverse ++ acc) rest := by
  obtain ⟨hhigh, hhighvalue⟩ := hexValue?_hexChar (n := c.toNat / 16) (by omega)
  obtain ⟨hlow, hlowvalue⟩ := hexValue?_hexChar (n := c.toNat % 16) (by omega)
  have hfirst : Utf8.encode ['\\', 'u', '0', '0'] = [92, 117, 48, 48] := by decide
  have hzero : hexValue? 48 = some 0 := by decide
  have hunit : hexUnit? 48 48 (UInt8.ofNat (hexChar (c.toNat / 16)).toNat)
      (UInt8.ofNat (hexChar (c.toNat % 16)).toNat) = some c.toNat := by
    simp only [hexUnit?, hzero, hhighvalue, hlowvalue, Option.bind_eq_bind, Option.bind_some,
      Option.pure_def, Option.some.injEq]
    omega
  have hoctets : unitOctets c.toNat = (Utf8.encodeChar c).reverse := by
    rw [unitOctets, Char.ofNat_toNat]
  have hsplit : Utf8.encode ['\\', 'u', '0', '0', hexChar (c.toNat / 16), hexChar (c.toNat % 16)] =
      [92, 117, 48, 48, UInt8.ofNat (hexChar (c.toNat / 16)).toNat,
        UInt8.ofNat (hexChar (c.toNat % 16)).toNat] := by
    have happend := Utf8.encode_append ['\\', 'u', '0', '0']
      [hexChar (c.toNat / 16), hexChar (c.toNat % 16)]
    rw [hfirst, Utf8.encode_cons, Utf8.encode_cons, Utf8.encodeChar_of_lt hhigh,
      Utf8.encodeChar_of_lt hlow] at happend
    exact happend
  have hshort : shortEscape? 117 = none := by decide
  rw [hsplit, readContent.eq_def]
  simp only [List.cons_append, List.nil_append, show (92 : UInt8) ≠ 34 by decide, if_false, if_true,
    hshort, hunit]
  rw [if_neg (by omega), if_neg (by omega), hoctets]

/-- **A character as it stands in a text is gathered as its octets.** -/
theorem readContent_escapeChar (c : Char) (acc rest : Bytes) :
    readContent acc (Utf8.encode (escapeChar c) ++ rest) =
      readContent ((Utf8.encodeChar c).reverse ++ acc) rest := by
  unfold escapeChar
  split
  · rename_i hc
    subst hc
    exact readContent_escape acc rest (by decide)
  split
  · rename_i hc
    subst hc
    exact readContent_escape acc rest (by decide)
  rename_i hquote hslash
  split
  · rename_i hcontrol
    split
    · rename_i hc
      subst hc
      exact readContent_escape acc rest (by decide)
    split
    · rename_i hc
      subst hc
      exact readContent_escape acc rest (by decide)
    split
    · rename_i hc
      subst hc
      exact readContent_escape acc rest (by decide)
    split
    · rename_i hc
      have hoctets : Utf8.encodeChar c = [8] := by
        rw [Utf8.encodeChar_of_lt (by omega), hc]
        rfl
      rw [hoctets]
      exact readContent_escape acc rest (by decide)
    split
    · rename_i hc
      have hoctets : Utf8.encodeChar c = [12] := by
        rw [Utf8.encodeChar_of_lt (by omega), hc]
        rfl
      rw [hoctets]
      exact readContent_escape acc rest (by decide)
    · exact readContent_control acc rest hcontrol
  · rename_i hcontrol
    rw [Utf8.encode_cons, show Utf8.encode [] = [] from rfl, List.append_nil]
    by_cases hascii : c.toNat < 0x80
    · have hvalue : (UInt8.ofNat c.toNat).toNat = c.toNat := by
        simp
        omega
      have hne : ∀ d : Char, c ≠ d → d.toNat < 0x80 → UInt8.ofNat c.toNat ≠ UInt8.ofNat d.toNat := by
        intro d hd hdascii heq
        have hnat := congrArg UInt8.toNat heq
        have hdvalue : (UInt8.ofNat d.toNat).toNat = d.toNat := by
          simp
          omega
        rw [hvalue, hdvalue] at hnat
        exact hd (Char.toNat_inj.mp hnat)
      rw [Utf8.encodeChar_of_lt hascii]
      exact readContent_cons acc rest (hne '"' hquote (by decide)) (hne '\\' hslash (by decide))
        (by omega)
    · exact readContent_append (fun b hb => Utf8.le_of_mem_encodeChar (by omega) hb) acc rest

/-! ### Whole texts -/

theorem readContent_flatMap (cs : List Char) (acc rest : Bytes) :
    readContent acc (Utf8.encode (cs.flatMap escapeChar) ++ 34 :: rest) =
      .ok (acc.reverse ++ Utf8.encode cs, rest) := by
  induction cs generalizing acc with
  | nil =>
    show readContent acc (34 :: rest) = _
    rw [readContent.eq_def]
    simp [Utf8.encode]
  | cons c cs ih =>
    rw [List.flatMap_cons, Utf8.encode_append, List.append_assoc, readContent_escapeChar, ih,
      Utf8.encode_cons]
    simp

theorem encode_writeText (s : String) (rest : Bytes) :
    Utf8.encode (writeText s) ++ rest =
      34 :: (Utf8.encode (s.toList.flatMap escapeChar) ++ 34 :: rest) := by
  have hquote : Utf8.encode ['"'] = [34] := by decide
  rw [writeText, List.cons_append, Utf8.encode_cons, Utf8.encode_append, hquote]
  simp [Utf8.encodeChar]

/-- **A written text is read back.** -/
theorem readText_flatMap (s : String) (rest : Bytes) :
    readText (Utf8.encode (s.toList.flatMap escapeChar) ++ 34 :: rest) = .ok (s, rest) := by
  unfold readText
  rw [readContent_flatMap]
  simp [bind, Except.bind, pure, Except.pure, Utf8.decode?_encode]

end Json

end EventRelay
