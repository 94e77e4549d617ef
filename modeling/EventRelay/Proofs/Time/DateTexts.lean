import EventRelay.Proofs.Json.Numerals
import EventRelay.Proofs.Time.Calendar
import EventRelay.Proofs.Time.Sums
import EventRelay.Time.Rfc3339

/-!
# Date texts read back

The text of an instant is read back as this instant (`ofText_write`).  The parts of the text have
fixed numbers of digits, but for the year, which may be longer and then has a sign, and the fraction,
which stands in three, six or nine digits or is left out.  So every reader is followed on what the
writer of its part has written, in front of anything else.

A leap second is the last one of its minute (`Instant.Regular`).  One that is kept on any other second
has no text of its own: it is written like the second after it, and read back as that second
(`settled`).
-/

namespace EventRelay.Instant

/-! ### Digits -/

def AllDigits (cs : List Char) : Prop :=
  ∀ c ∈ cs, 48 ≤ c.toNat ∧ c.toNat ≤ 57

def NoDigit (rest : List Char) : Prop :=
  ∀ c more, rest = c :: more → digit? c = none

theorem noDigit_cons {c : Char} {more : List Char} (h : digit? c = none) : NoDigit (c :: more) := by
  intro c' more' heq
  obtain ⟨rfl, -⟩ := List.cons.inj heq
  exact h

theorem digit?_of_bounds {c : Char} (h : 48 ≤ c.toNat ∧ c.toNat ≤ 57) :
    digit? c = some (c.toNat - 48) := by
  have hrange : '0' ≤ c ∧ c ≤ '9' := by
    simpa [Char.le_def, UInt32.le_iff_toNat_le] using h
  rw [digit?, if_pos hrange]

theorem leadingDigits_append {cs rest : List Char} {most : Nat} (hcs : AllDigits cs)
    (hmost : cs.length ≤ most) (hrest : cs.length = most ∨ NoDigit rest) :
    leadingDigits most (cs ++ rest) = (cs.map fun c => c.toNat - 48, rest) := by
  induction cs generalizing most with
  | nil =>
    cases most with
    | zero => rfl
    | succ most =>
      cases rest with
      | nil => rfl
      | cons c more =>
        have hstop := hrest.resolve_left (by simp) c more rfl
        simp only [List.nil_append, leadingDigits, hstop, List.map_nil]
  | cons c cs ih =>
    obtain ⟨hc, hcs⟩ := List.forall_mem_cons.mp hcs
    rw [List.length_cons] at hmost hrest
    obtain ⟨most, rfl⟩ : ∃ less, most = less + 1 := ⟨most - 1, by omega⟩
    have hrest' := ih hcs (by omega) (hrest.imp Nat.succ.inj id)
    simp only [List.cons_append, leadingDigits, digit?_of_bounds hc, hrest', List.map_cons]

theorem foldl_digits (cs : List Char) (start : Nat) :
    (cs.map fun c => c.toNat - 48).foldl (fun n d => n * 10 + d) start =
      Nat.ofDigitChars 10 cs start := by
  induction cs generalizing start with
  | nil => rfl
  | cons c cs ih =>
    rw [List.map_cons, List.foldl_cons, ih, Nat.ofDigitChars_cons, Nat.mul_comm]
    rfl

/-! ### Padded numbers -/

theorem allDigits_padded (n width : Nat) : AllDigits (padded n width) := by
  intro c hc
  rcases List.mem_append.mp hc with hc | hc
  · rw [List.eq_of_mem_replicate hc]
    decide
  · exact Json.toNat_of_mem_natDigits hc

theorem ofDigitChars_padded (n width : Nat) : Nat.ofDigitChars 10 (padded n width) 0 = n := by
  have hzeros (k : Nat) (cs : List Char) :
      Nat.ofDigitChars 10 (List.replicate k '0' ++ cs) 0 = Nat.ofDigitChars 10 cs 0 := by
    induction k with
    | zero => rfl
    | succ k ih => exact (Nat.ofDigitChars_cons ..).trans ih
  exact (hzeros _ _).trans (Nat.ofDigitChars_toDigits (by decide) (by decide))

theorem padded_ne_nil (n width : Nat) : padded n width ≠ [] := by
  simp [padded, Decimal.natDigits, Nat.toDigits_ne_nil]

theorem length_padded (n width : Nat) (hwidth : 0 < width) (h : n < pow10 width) :
    (padded n width).length = width := by
  have hdigits : (Decimal.natDigits n).length ≤ width :=
    (Nat.length_toDigits_le_iff (by decide) hwidth).mpr h
  simp only [padded, List.length_append, List.length_replicate]
  omega

theorem exists_head_padded (n width : Nat) :
    ∃ c more, padded n width = c :: more ∧ 48 ≤ c.toNat ∧ c.toNat ≤ 57 := by
  cases h : padded n width with
  | nil => exact absurd h (padded_ne_nil n width)
  | cons c more => exact ⟨c, more, rfl, allDigits_padded n width c (h ▸ List.mem_cons_self ..)⟩

theorem trimStart_cons {c : Char} (h : Text.isBlank c = false) (rest : List Char) :
    Text.trimStart (c :: rest) = c :: rest := by
  simp [Text.trimStart, h]

theorem isBlank_digit {c : Char} (h : 48 ≤ c.toNat ∧ c.toNat ≤ 57) : Text.isBlank c = false := by
  rw [Text.isBlank, List.any_eq_false]
  intro range hrange
  simp only [Text.blankRanges, List.mem_cons, List.not_mem_nil, or_false] at hrange
  rcases hrange with rfl | rfl | rfl | rfl | rfl | rfl | rfl | rfl | rfl | rfl <;> simp <;> omega

theorem trimStart_padded (n width : Nat) (rest : List Char) :
    Text.trimStart (padded n width ++ rest) = padded n width ++ rest := by
  obtain ⟨c, more, hhead, hc⟩ := exists_head_padded n width
  rw [hhead, List.cons_append, trimStart_cons (isBlank_digit hc)]

/-- **A padded number is read back**, in front of what is no digit, or if no more digits are
wanted. -/
theorem readNumber_padded {n width most : Nat} (rest : List Char)
    (hmost : (padded n width).length ≤ most)
    (hrest : (padded n width).length = most ∨ NoDigit rest) (hn : n < pow2 63) :
    readNumber most (padded n width ++ rest) = .ok (n, rest) := by
  have hdigits := leadingDigits_append (allDigits_padded n width) hmost hrest
  have hvalue := (foldl_digits (padded n width) 0).trans (ofDigitChars_padded n width)
  obtain ⟨c, more, hhead, -⟩ := exists_head_padded n width
  rw [hhead, List.map_cons] at hdigits hvalue
  rw [hhead, readNumber, hdigits]
  dsimp only
  rw [hvalue, if_pos hn]

/-! ### Parts -/

theorem readPart_padded {least most n : Nat} (hleast : least ≤ n) (hmost : n ≤ most)
    (hwidth : n < 100) (rest : List Char) :
    readPart least most (padded n 2 ++ rest) = .ok (n, rest) := by
  have hlength := length_padded n 2 (by decide) hwidth
  have hbig : n < pow2 63 := Nat.lt_trans hwidth (by decide)
  have hnumber := readNumber_padded rest (Nat.le_of_eq hlength) (.inl hlength) hbig
  rw [readPart, trimStart_padded, hnumber]
  exact if_pos ⟨hleast, hmost⟩

theorem readMark_cons {mark : Char} (h : Text.isBlank mark = false) (rest : List Char) :
    readMark mark (mark :: rest) = .ok rest := by
  rw [readMark, trimStart_cons h]
  exact if_pos rfl

/-- **Years**, which have a sign unless they have four digits. -/
theorem readYear_writeYear {year : Int} (hleast : leastInt32 ≤ year) (hgreatest : year ≤ greatestInt32)
    (rest : List Char) :
    readYear (writeYear year ++ '-' :: rest) = .ok (year, '-' :: rest) := by
  have hrest : NoDigit ('-' :: rest) := noDigit_cons (by decide)
  have hbounds : year.natAbs < pow2 63 := by
    have hpow : pow2 63 = 9223372036854775808 := by decide
    unfold leastInt32 at hleast
    unfold greatestInt32 at hgreatest
    omega
  unfold writeYear
  split
  · rename_i hplain
    have hlength := length_padded year.toNat 4 (by decide) (show year.toNat < 10000 by omega)
    have hnumber := readNumber_padded ('-' :: rest) (Nat.le_of_eq hlength)
      (.inl hlength) (by omega)
    have hvalue : (year.toNat : Int) = year := by omega
    obtain ⟨c, more, hhead, hc⟩ := exists_head_padded year.toNat 4
    rw [readYear, trimStart_padded]
    rw [hhead, List.cons_append] at hnumber ⊢
    split
    · rename_i heq
      obtain ⟨rfl, -⟩ := List.cons.inj heq
      exact absurd hc.1 (by decide)
    · rename_i heq
      obtain ⟨rfl, -⟩ := List.cons.inj heq
      exact absurd hc.1 (by decide)
    · rw [hnumber]
      simp only [bind, Except.bind, Bool.false_eq_true, if_false, hvalue]
      exact if_pos ⟨hleast, hgreatest⟩
  · have hmost : (padded year.natAbs 4).length ≤ (padded year.natAbs 4 ++ '-' :: rest).length := by
      simp
    have hnumber := readNumber_padded ('-' :: rest) hmost (.inr hrest) hbounds
    rw [List.cons_append]
    generalize padded year.natAbs 4 ++ '-' :: rest = text at hnumber
    by_cases hneg : year < 0
    · have hvalue : -(year.natAbs : Int) = year := by omega
      rw [if_pos hneg, readYear, trimStart_cons (by decide)]
      simp only [hnumber, bind, Except.bind, if_true, hvalue]
      exact if_pos ⟨hleast, hgreatest⟩
    · have hvalue : (year.natAbs : Int) = year := by omega
      rw [if_neg hneg, readYear, trimStart_cons (by decide)]
      simp only [hnumber, bind, Except.bind, Bool.false_eq_true, if_false, hvalue]
      exact if_pos ⟨hleast, hgreatest⟩

/-- **Fractions**, of which no more digits are written than count. -/
theorem readFraction_writeFraction {n : Nat} (hn : n < Duration.perSecond) {rest : List Char}
    (hrest : NoDigit rest) (hpoint : ∀ more, rest ≠ '.' :: more) :
    readFraction (writeFraction n ++ rest) = .ok (n, rest) := by
  have hread {k width : Nat} (hwidth : 0 < width) (hmost : width ≤ 9) (hk : k < pow10 width)
      (hvalue : k * pow10 (9 - width) = n) :
      readFraction ('.' :: (padded k width ++ rest)) = .ok (n, rest) := by
    have hlength := length_padded k width hwidth hk
    have hnine : (padded k width).length ≤ 9 := by omega
    have hdigits := leadingDigits_append (allDigits_padded k width) hnine (.inr hrest)
    have hspelled := (foldl_digits (padded k width) 0).trans (ofDigitChars_padded k width)
    have hdrop : (rest.dropWhile fun c => (digit? c).isSome) = rest := by
      cases rest with
      | nil => rfl
      | cons c more => simp [hrest c more rfl]
    obtain ⟨c, more, hhead, -⟩ := exists_head_padded k width
    rw [← List.length_map (fun c : Char => c.toNat - 48)] at hlength
    rw [hhead, List.map_cons] at hdigits hspelled hlength
    rw [hhead, readFraction, hdigits]
    dsimp only
    rw [hspelled, hlength, hvalue, hdrop]
  unfold writeFraction
  unfold Duration.perSecond at hn
  split
  · rename_i hzero
    rw [List.nil_append, hzero]
    unfold readFraction
    split
    · exact absurd rfl (hpoint _)
    · rfl
  · split
    · rename_i hmilli
      have hmillis : n / Duration.perMilli < 1000 := by
        unfold Duration.perMilli
        omega
      exact hread (by decide) (by decide) hmillis
        (Nat.div_mul_cancel (Nat.dvd_of_mod_eq_zero hmilli))
    · split
      · rename_i hmicro
        have hmicros : n / Duration.perMicro < 1000000 := by
          unfold Duration.perMicro
          omega
        exact hread (by decide) (by decide) hmicros
          (Nat.div_mul_cancel (Nat.dvd_of_mod_eq_zero hmicro))
      · exact hread (by decide) (by decide) hn (Nat.mul_one n)

theorem readOffset_zulu : readOffset ['Z'] = .ok (0, []) := by
  have hword : (String.ofList (['Z'].take 3)).toLower ≠ "utc" := by
    intro h
    have hlength : ((String.ofList (['Z'].take 3)).map Char.toLower).length = "utc".length :=
      congrArg String.length h
    rw [String.length_map] at hlength
    exact absurd hlength (by decide)
  rw [readOffset, trimStart_cons (by decide)]
  simp only [hword, if_false]
  rfl

/-! ### Whole texts -/

/-- The instant for which a text stands that was written for an instant.  A leap second that is not
the last second of its minute is written like the second after it. -/
def settled (t : Instant) : Instant :=
  if t.isLeap = true ∧ t.second % 60 ≠ 59 then ⟨t.second + 1, t.fraction - Duration.perSecond⟩ else t

theorem settled_of_not_leap {t : Instant} (h : t.fraction < Duration.perSecond) : t.settled = t := by
  refine if_neg fun hodd => ?_
  have := isLeap_iff.mp hodd.1
  omega

theorem settled_of_last {t : Instant} (h : t.second % 60 = 59) : t.settled = t :=
  if_neg fun hodd => hodd.2 h

theorem settled_of_leap {t : Instant} (h : Duration.perSecond ≤ t.fraction)
    (hlast : t.second % 60 ≠ 59) : t.settled = ⟨t.second + 1, t.fraction - Duration.perSecond⟩ :=
  if_pos ⟨isLeap_iff.mpr h, hlast⟩

/-- The second of its minute and the fraction that stand in a text give the instant for which it
stands. -/
theorem settled_eq {t : Instant} (h : t.fraction < 2 * Duration.perSecond) {minute second : Int}
    {ofMinute : Nat} (hminute : t.second = minute * 60 + second)
    (hsecond : 0 ≤ second ∧ second < 60)
    (hofMinute : (ofMinute : Int) = second + (t.fraction / Duration.perSecond : Nat)) :
    (⟨minute * 60 + (min ofMinute 59 : Nat), (ofMinute - min ofMinute 59) * Duration.perSecond +
      t.fraction % Duration.perSecond⟩ : Instant) = t.settled := by
  unfold Duration.perSecond at *
  by_cases hleap : t.fraction < 1000000000
  · rw [settled_of_not_leap hleap]
    exact (Instant.mk.injEq ..).mpr ⟨by omega, by omega⟩
  · by_cases hlast : t.second % 60 = 59
    · rw [settled_of_last hlast]
      exact (Instant.mk.injEq ..).mpr ⟨by omega, by omega⟩
    · rw [settled_of_leap (Nat.not_lt.mp hleap) hlast]
      unfold Duration.perSecond
      exact (Instant.mk.injEq ..).mpr ⟨by omega, by omega⟩

theorem InRange.settled {t : Instant} (h : t.InRange) : t.settled.InRange := by
  obtain ⟨hleast, hgreatest, hfraction⟩ := h
  unfold Instant.settled
  split
  · rename_i hodd
    have hleap := isLeap_iff.mp hodd.1
    have hlast : greatest.second % 60 = 59 := by decide
    refine ⟨?_, ?_, ?_⟩ <;> dsimp only <;> omega
  · exact ⟨hleast, hgreatest, hfraction⟩

theorem InRange.year {t : Instant} (h : t.InRange) :
    leastYear ≤ (Date.ofDays (t.second / perDay)).year ∧
      (Date.ofDays (t.second / perDay)).year ≤ greatestYear := by
  have hfirst : Date.toDays ⟨leastYear, 1, 1⟩ = -96465292 := by decide
  have hnext : Date.toDays ⟨greatestYear + 1, 1, 1⟩ = 95026237 := by decide
  have hleast : -8334601228800 ≤ t.second := second_least ▸ h.1
  have hgreatest : t.second ≤ 8210266876799 := by
    have := h.2.1
    rw [greatest_eq] at this
    exact this
  unfold perDay
  refine ⟨Date.le_year_ofDays_iff.mpr ?_, Int.not_lt.mp fun hlater => ?_⟩
  · rw [hfirst]
    omega
  · have hlater := Date.le_year_ofDays_iff.mp (Int.add_one_le_of_lt hlater)
    rw [hnext] at hlater
    omega

theorem ofParts_eq {t : Instant} (h : t.InRange) :
    ofParts (Date.ofDays (t.second / perDay)) ((t.second % perDay).toNat / 3600)
        ((t.second % perDay).toNat / 60 % 60)
        ((t.second % perDay).toNat % 60 + t.fraction / Duration.perSecond)
        (t.fraction % Duration.perSecond) 0 =
      .ok t.settled := by
  have hday := Date.toDays_ofDays (t.second / perDay)
  have hvalid := Date.isValid_ofDays (t.second / perDay)
  have hyear := h.year
  generalize Date.ofDays (t.second / perDay) = date at *
  have hrefused : ¬ ((!date.isValid) = true ∨ date.year < leastYear ∨ greatestYear < date.year) := by
    rw [hvalid]
    simp only [Bool.not_true, Bool.false_eq_true, false_or, not_or, Int.not_lt]
    exact hyear
  have hminute : t.second = t.second / 60 * 60 + t.second % 60 := by omega
  have hofMinute : ((t.second % perDay).toNat % 60 + t.fraction / Duration.perSecond : Nat) =
      t.second % 60 + (t.fraction / Duration.perSecond : Nat) := by
    unfold perDay
    omega
  have hsettled := settled_eq h.2.2 hminute (by omega) hofMinute
  have hminutes : t.second / perDay * perDay + ((t.second % perDay).toNat / 3600 : Nat) * 3600 +
      ((t.second % perDay).toNat / 60 % 60 : Nat) * 60 = t.second / 60 * 60 := by
    unfold perDay
    omega
  rw [ofParts, if_neg hrefused, if_neg (by decide), hday]
  dsimp only
  rw [hminutes, Int.zero_mul, Int.sub_zero, hsettled, if_pos h.settled]

/-- **The text of an instant stands for the instant**, or for the second after it if it lies in a leap
second that is not the last of its minute. -/
theorem ofText_write_eq {t : Instant} (h : t.InRange) : ofText t.write = .ok t.settled := by
  have hyear := h.year
  have hfraction := h.2.2
  have hmonth : 1 ≤ (Date.ofDays (t.second / perDay)).month ∧
      (Date.ofDays (t.second / perDay)).month ≤ 12 ∧ 1 ≤ (Date.ofDays (t.second / perDay)).day ∧
      (Date.ofDays (t.second / perDay)).day ≤ 31 := by
    have hvalid := Date.isValid_ofDays (t.second / perDay)
    simp only [Date.isValid, Bool.and_eq_true, decide_eq_true_eq] at hvalid
    obtain ⟨⟨⟨hfirst, hlast⟩, hday⟩, hdays⟩ := hvalid
    refine ⟨hfirst, hlast, hday, Nat.le_trans hdays ?_⟩
    unfold Date.daysInMonth
    split
    · split <;> decide
    · split <;> decide
  obtain ⟨hfirst, hlast, hday, hdays⟩ := hmonth
  have hhour : (t.second % perDay).toNat / 3600 ≤ 23 := by
    unfold perDay
    omega
  have hminute : (t.second % perDay).toNat / 60 % 60 ≤ 59 := by omega
  have hsecond : (t.second % perDay).toNat % 60 + t.fraction / Duration.perSecond ≤ 60 := by
    unfold Duration.perSecond at *
    omega
  have hparts := ofParts_eq h
  rw [ofText, write, String.toList_ofList, writeLocal]
  simp only [List.append_assoc, List.cons_append]
  generalize Date.ofDays (t.second / perDay) = date at *
  obtain ⟨year, month, day⟩ := date
  dsimp only at *
  unfold leastYear greatestYear at hyear
  have hleast : leastInt32 ≤ year := by
    unfold leastInt32
    omega
  have hgreatest : year ≤ greatestInt32 := by
    unfold greatestInt32
    omega
  have hdash : Text.isBlank '-' = false := by decide
  have hcolon : Text.isBlank ':' = false := by decide
  have hdivider (rest : List Char) : readDivider ('T' :: rest) = .ok rest := rfl
  have hnanosecond : t.fraction % Duration.perSecond < Duration.perSecond :=
    Nat.mod_lt _ (by decide)
  have hzulu : NoDigit ['Z'] := noDigit_cons (by decide)
  simp only [bind, Except.bind, readYear_writeYear hleast hgreatest, readMark_cons hdash,
    readPart_padded hfirst hlast (by omega), readPart_padded hday hdays (by omega), hdivider,
    readPart_padded (Nat.zero_le _) hhour (by omega), readMark_cons hcolon,
    readPart_padded (Nat.zero_le _) hminute (by omega),
    readPart_padded (Nat.zero_le _) hsecond (by omega),
    readFraction_writeFraction hnanosecond hzulu (fun more => by simp), readOffset_zulu]
  exact hparts

/-- An instant that lies in the range and, if it lies in a leap second, in the last second of a
minute. -/
structure Regular (t : Instant) : Prop where
  inRange : t.InRange
  leap : t.isLeap = true → t.second % 60 = 59

theorem Regular.settled {t : Instant} (h : t.Regular) : t.settled = t :=
  if_neg fun hodd => hodd.2 (h.leap hodd.1)

theorem settled_eq_self_iff {t : Instant} (h : t.InRange) : t.settled = t ↔ t.Regular := by
  refine ⟨fun hsame => ⟨h, fun hleap => Decidable.byContradiction fun hlast => ?_⟩, Regular.settled⟩
  rw [settled_of_leap (isLeap_iff.mp hleap) hlast] at hsame
  have hsecond : t.second + 1 = t.second := congrArg Instant.second hsame
  omega

/-- **Its text stands for it.** -/
theorem ofText_write {t : Instant} (h : t.Regular) : ofText t.write = .ok t := by
  rw [ofText_write_eq h.inRange, h.settled]

end EventRelay.Instant
