import EventRelay.Json.Parser
import EventRelay.Proofs.Json.Texts

/-!
# Whole numbers read back

The digits of a natural number are taken up one after the other as long as the number fits into
64 bits, so a whole number in its range is read as such and not as a double.  A numeral has no end
of its own: what follows it must not go on with it (`Stops`), and in a document it never does.
-/

namespace EventRelay

theorem exists_of_bind_ok {ε α β : Type} {step : Except ε α} {next : α → Except ε β} {b : β}
    (h : step >>= next = .ok b) : ∃ a, step = .ok a ∧ next a = .ok b := by
  cases step with
  | error fault => cases h
  | ok a => exact ⟨a, rfl, h⟩

theorem exists_of_map_ok {ε α β : Type} {step : Except ε α} {f : α → β} {b : β}
    (h : step.map f = .ok b) : ∃ a, step = .ok a ∧ f a = b := by
  cases step with
  | error fault => cases h
  | ok a => exact ⟨a, rfl, Except.ok.inj h⟩

namespace Json

/-- What goes on behind a numeral is no part of it. -/
def Stops (rest : Bytes) : Prop :=
  ∀ b more, rest = b :: more → isDigit b = false ∧ b ≠ 46 ∧ b ≠ 101 ∧ b ≠ 69

theorem stops_nil : Stops [] := fun _ _ h => nomatch h

theorem stops_cons {b : UInt8} {more : Bytes}
    (h : isDigit b = false ∧ b ≠ 46 ∧ b ≠ 101 ∧ b ≠ 69) : Stops (b :: more) := by
  intro b' more' heq
  obtain ⟨rfl, -⟩ := List.cons.inj heq
  exact h

/-! ### Digits -/

def digitOctets (n : Nat) : Bytes :=
  Utf8.encode (Decimal.natDigits n)

theorem toNat_of_mem_natDigits {n : Nat} {c : Char} (hc : c ∈ Decimal.natDigits n) :
    48 ≤ c.toNat ∧ c.toNat ≤ 57 := by
  have hdigit : c.isDigit = true := Nat.isDigit_of_mem_toDigits (by decide) (by decide) hc
  simpa [Char.isDigit, UInt32.le_iff_toNat_le] using hdigit

theorem digitOctets_eq_map (n : Nat) :
    digitOctets n = (Decimal.natDigits n).map fun c => UInt8.ofNat c.toNat := by
  have hmap : ∀ cs : List Char, (∀ c ∈ cs, c.toNat < 0x80) →
      Utf8.encode cs = cs.map fun c => UInt8.ofNat c.toNat := by
    intro cs
    induction cs with
    | nil => exact fun _ => rfl
    | cons c cs ih =>
      intro hcs
      rw [Utf8.encode_cons, Utf8.encodeChar_of_lt (hcs c (List.mem_cons_self ..)),
        ih fun c' hc' => hcs c' (List.mem_cons_of_mem _ hc')]
      rfl
  refine hmap _ fun c hc => ?_
  have := toNat_of_mem_natDigits hc
  omega

theorem isDigit_of_mem {n : Nat} {b : UInt8} (hb : b ∈ digitOctets n) : isDigit b = true := by
  rw [digitOctets_eq_map, List.mem_map] at hb
  obtain ⟨c, hc, rfl⟩ := hb
  have := toNat_of_mem_natDigits hc
  simp [isDigit, UInt8.le_iff_toNat_le]
  omega

theorem digitOctets_ne_nil (n : Nat) : digitOctets n ≠ [] := by
  rw [digitOctets_eq_map]
  simp [Decimal.natDigits, Nat.toDigits_ne_nil]

def spelled (start : Nat) (digits : Bytes) : Nat :=
  digits.foldl (fun n d => n * 10 + digitValue d) start

theorem spelled_digitOctets (n : Nat) : spelled 0 (digitOctets n) = n := by
  have hfold : ∀ (cs : List Char) (start : Nat), (∀ c ∈ cs, 48 ≤ c.toNat ∧ c.toNat ≤ 57) →
      spelled start (cs.map fun c => UInt8.ofNat c.toNat) = Nat.ofDigitChars 10 cs start := by
    intro cs
    induction cs with
    | nil => exact fun _ _ => rfl
    | cons c cs ih =>
      intro start hcs
      have hc := hcs c (List.mem_cons_self ..)
      have hvalue : digitValue (UInt8.ofNat c.toNat) = c.toNat - '0'.toNat := by
        simp [digitValue]
        omega
      have hnext := ih (start * 10 + digitValue (UInt8.ofNat c.toNat)) fun c' hc' =>
        hcs c' (List.mem_cons_of_mem _ hc')
      show spelled (start * 10 + digitValue (UInt8.ofNat c.toNat)) _ = _
      rw [hnext, hvalue, Nat.mul_comm]
      rfl
  rw [digitOctets_eq_map, hfold _ _ fun c hc => toNat_of_mem_natDigits hc]
  exact Nat.ofDigitChars_toDigits (by decide) (by decide)

theorem le_spelled (start : Nat) (digits : Bytes) : start ≤ spelled start digits := by
  induction digits generalizing start with
  | nil => exact Nat.le_refl _
  | cons d digits ih =>
    have := ih (start * 10 + digitValue d)
    show start ≤ spelled (start * 10 + digitValue d) digits
    omega

theorem absorb_of_lt {start : Nat} {digits : Bytes} (h : spelled start digits < pow2 64) :
    absorb start digits = (spelled start digits, []) := by
  induction digits generalizing start with
  | nil => rfl
  | cons d digits ih =>
    have hle := le_spelled (start * 10 + digitValue d) digits
    have hrest : spelled (start * 10 + digitValue d) digits < pow2 64 := h
    rw [absorb]
    simp only [if_pos (Nat.lt_of_le_of_lt hle hrest)]
    exact ih hrest

theorem absorb_digitOctets {n : Nat} (hn : n < pow2 64) : absorb 0 (digitOctets n) = (n, []) := by
  have hspelled := spelled_digitOctets n
  have hfits : spelled 0 (digitOctets n) < pow2 64 := by
    rw [hspelled]
    exact hn
  rw [absorb_of_lt hfits, hspelled]

theorem head_digitOctets {n : Nat} (hn : 0 < n) {b : UInt8} {more : Bytes}
    (h : digitOctets n = b :: more) : b ≠ 48 := by
  induction n using Nat.strongRecOn generalizing b more with
  | ind n ih =>
    by_cases hsmall : n < 10
    · have hall : ∀ n < 10, 0 < n → digitOctets n ≠ [] ∧ (digitOctets n).head? ≠ some 48 := by decide
      have := (hall n hsmall hn).2
      rw [h] at this
      simpa using this
    · have hsplit : digitOctets n = digitOctets (n / 10) ++ Utf8.encode [(n % 10).digitChar] := by
        rw [digitOctets, Decimal.natDigits, Nat.toDigits_of_base_le (by decide) (by omega),
          Utf8.encode_append]
        rfl
      cases hfront : digitOctets (n / 10) with
      | nil => exact absurd hfront (digitOctets_ne_nil _)
      | cons b' more' =>
        rw [hsplit, hfront, List.cons_append] at h
        obtain ⟨rfl, -⟩ := List.cons.inj h
        exact ih (n / 10) (by omega) (by omega) hfront

/-! ### Numerals -/

theorem takeWhile_digits {n : Nat} {rest : Bytes} (hrest : Stops rest) :
    spanDigits (digitOctets n ++ rest) = (digitOctets n, rest) := by
  have hall : ∀ b ∈ digitOctets n, isDigit b = true := fun b hb => isDigit_of_mem hb
  have hstop : rest.takeWhile isDigit = [] ∧ rest.dropWhile isDigit = rest := by
    cases rest with
    | nil => exact ⟨rfl, rfl⟩
    | cons b more =>
      have hb := (hrest b more rfl).1
      simp [hb]
  unfold spanDigits
  rw [List.takeWhile_append_of_pos hall, List.dropWhile_append_of_pos hall, hstop.1, hstop.2,
    List.append_nil]

theorem readWhole_digitOctets (n : Nat) {rest : Bytes} (hrest : Stops rest) :
    readWhole (digitOctets n ++ rest) = .ok (digitOctets n, rest) := by
  by_cases hzero : n = 0
  · subst hzero
    have hoctets : digitOctets 0 = [48] := by decide
    rw [hoctets]
    cases rest with
    | nil => rfl
    | cons b more =>
      have hb := (hrest b more rfl).1
      simp [readWhole, hb]
  · cases hdigits : digitOctets n with
    | nil => exact absurd hdigits (digitOctets_ne_nil n)
    | cons b more =>
      have hne := head_digitOctets (Nat.pos_of_ne_zero hzero) hdigits
      have hb : isDigit b = true := isDigit_of_mem (hdigits ▸ List.mem_cons_self ..)
      have hspan := takeWhile_digits (n := n) hrest
      rw [hdigits, List.cons_append] at hspan
      simp only [List.cons_append, readWhole, hne, if_false, hb, if_true]
      rw [hspan]

theorem readFraction_of_stops {rest : Bytes} (hrest : Stops rest) :
    readFraction rest = .ok (none, rest) := by
  cases rest with
  | nil => rfl
  | cons b more => simp [readFraction, (hrest b more rfl).2.1]

theorem readExponent_of_stops {rest : Bytes} (hrest : Stops rest) (isZero : Bool) :
    readExponent isZero rest = .ok (none, rest) := by
  cases rest with
  | nil => rfl
  | cons b more =>
    obtain ⟨-, -, hlower, hupper⟩ := hrest b more rfl
    simp [readExponent, hlower, hupper]

theorem readNumber_digitOctets {n : Nat} {rest : Bytes} (hn : n < pow2 64) (hrest : Stops rest) :
    readNumber (digitOctets n ++ rest) = .ok (.integer n, rest) := by
  have habsorb := absorb_digitOctets hn
  have hsign : ∃ b more, digitOctets n = b :: more ∧ b ≠ 45 := by
    cases hdigits : digitOctets n with
    | nil => exact absurd hdigits (digitOctets_ne_nil n)
    | cons b more =>
      have hb : isDigit b = true := isDigit_of_mem (hdigits ▸ List.mem_cons_self ..)
      refine ⟨b, more, rfl, ?_⟩
      rintro rfl
      exact absurd hb (by decide)
  obtain ⟨b, more, hdigits, hb⟩ := hsign
  have hwhole := readWhole_digitOctets n hrest
  rw [hdigits, List.cons_append] at hwhole
  rw [hdigits] at habsorb
  rw [hdigits, List.cons_append]
  unfold readNumber
  simp [hb, hwhole, bind, Except.bind, pure, Except.pure, readFraction_of_stops hrest,
    readExponent_of_stops hrest, Numeral.value?, habsorb]

theorem readNumber_minus {n : Nat} {rest : Bytes} (hpos : 0 < n) (hn : n ≤ pow2 63)
    (hrest : Stops rest) : readNumber (45 :: (digitOctets n ++ rest)) = .ok (.integer (-n), rest) := by
  have hlt : n < pow2 64 := Nat.lt_of_le_of_lt hn (by decide)
  have habsorb := absorb_digitOctets hlt
  have hrange : ¬ (n = 0 ∨ pow2 63 < n) := by omega
  unfold readNumber
  simp [readWhole_digitOctets n hrest, bind, Except.bind, pure, Except.pure,
    readFraction_of_stops hrest, readExponent_of_stops hrest, Numeral.value?, habsorb, hrange]

theorem encode_writeInteger (i : Int) :
    Utf8.encode (writeInteger i) =
      if i < 0 then 45 :: digitOctets i.natAbs else digitOctets i.toNat := by
  unfold writeInteger
  split
  · rw [Utf8.encode_cons]
    rfl
  · rfl

/-- **A written whole number is read back.** -/
theorem readNumber_writeInteger {i : Int} {rest : Bytes} (hleast : leastInt64 ≤ i)
    (hmost : i < (pow2 64 : Nat)) (hrest : Stops rest) :
    readNumber (Utf8.encode (writeInteger i) ++ rest) = .ok (.integer i, rest) := by
  rw [encode_writeInteger]
  split
  · rename_i hneg
    have hbound : i.natAbs ≤ pow2 63 := by
      have hpow : pow2 63 = 9223372036854775808 := by decide
      unfold leastInt64 at hleast
      omega
    rw [List.cons_append, readNumber_minus (by omega) hbound hrest]
    have hvalue : -(i.natAbs : Int) = i := by omega
    rw [hvalue]
  · rename_i hneg
    rw [readNumber_digitOctets (by omega) hrest]
    have hvalue : (i.toNat : Int) = i := by omega
    rw [hvalue]

theorem exists_head_writeInteger (i : Int) :
    ∃ b more, Utf8.encode (writeInteger i) = b :: more ∧ (b = 45 ∨ isDigit b = true) := by
  rw [encode_writeInteger]
  split
  · exact ⟨45, _, rfl, .inl rfl⟩
  · cases hdigits : digitOctets i.toNat with
    | nil => exact absurd hdigits (digitOctets_ne_nil _)
    | cons b more => exact ⟨b, more, rfl, .inr (isDigit_of_mem (hdigits ▸ List.mem_cons_self ..))⟩

end Json

end EventRelay
