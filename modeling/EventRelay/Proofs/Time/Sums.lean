import EventRelay.Time.Instant

/-!
# Sums of instants and spans

What comes a span after an instant (`Instant.After`): there is one such instant, it is not before the
first one, and the longer the span the later it is.  A leap second in which the first instant lies is
time that passes; no other leap second is known of, and none is ever entered.

Two ways of adding stop at the end of the range.  `Instant.plus` refuses a span that is too long to
be added, `Instant.plusAtMost` cuts it, and both look at the sum only after that.  The longest span
reaches from one end of the range beyond the other, and so both give the exact sum or the end of the
range (`plus_eq`, `plusAtMost_eq`).

A clock that enters a leap second falls behind: an instant in front of a leap second and one in it
that is less than a second later have sums in the other order.  This is the only exception
(`plus_le_plus_iff`).
-/

namespace EventRelay.Instant

/-! ### Order -/

variable {a b c now now' t t' : Instant}

theorem le_iff :
    a ≤ b ↔ a.second < b.second ∨ a.second = b.second ∧ a.fraction ≤ b.fraction :=
  Iff.rfl

theorem le_rfl : a ≤ a :=
  .inr ⟨rfl, Nat.le_refl _⟩

theorem le_trans (h : a ≤ b) (h' : b ≤ c) : a ≤ c := by
  rw [le_iff] at *
  omega

theorem le_of_not_le (h : ¬ a ≤ b) : b ≤ a := by
  rw [le_iff] at *
  omega

theorem isLeap_iff : t.isLeap = true ↔ Duration.perSecond ≤ t.fraction :=
  decide_eq_true_iff

theorem not_isLeap_iff : t.isLeap = false ↔ t.fraction < Duration.perSecond := by
  rw [isLeap, decide_eq_false_iff_not]
  omega

/-! ### Exact sums -/

/-- The nanoseconds from an instant to a later one.  The second numbers leave leap seconds out, and
the one in which the first instant lies is counted in. -/
def elapsed (now t : Instant) : Int :=
  t.nanoseconds - now.nanoseconds +
    if now.isLeap = true ∧ now.second < t.second then Duration.perSecond else 0

/-- What comes a span after an instant.  It lies in no other leap second than the instant does. -/
structure After (now : Instant) (d : Duration) (t : Instant) : Prop where
  elapsed : now.elapsed t = d.nanoseconds
  leap : t.isLeap = true → now.isLeap = true ∧ t.second = now.second
  fraction : t.fraction < 2 * Duration.perSecond

theorem nanoseconds_of_after {d : Duration} (h : now.After d t) (hleap : now.isLeap = false) :
    t.nanoseconds = now.nanoseconds + d.nanoseconds ∧ t.isLeap = false := by
  have helapsed := h.elapsed
  rw [elapsed, if_neg (by simp [hleap])] at helapsed
  refine ⟨by omega, ?_⟩
  cases ht : t.isLeap with
  | false => rfl
  | true => exact absurd (h.leap ht).1 (by simp [hleap])

theorem shifted_of_not_leap (h : t.isLeap = false) (n : Nat) :
    t.shifted n = ofNanoseconds (t.nanoseconds + n) := by
  rw [shifted, h]
  rfl

theorem shifted_of_leap (h : t.isLeap = true) (hfraction : t.fraction < 2 * Duration.perSecond)
    (n : Nat) :
    t.shifted n = if t.fraction + n < 2 * Duration.perSecond then ⟨t.second, t.fraction + n⟩
      else ofNanoseconds (t.nanoseconds - Duration.perSecond + n) := by
  have hleap := isLeap_iff.mp h
  rw [shifted, h]
  by_cases hstays : t.fraction + n < 2 * Duration.perSecond
  · have hinside : (n : Int).natAbs < Duration.perSecond ∧
        (t.fraction + n : Int) < 2 * Duration.perSecond := by omega
    rw [if_neg (by simp), if_pos hinside, if_pos hstays]
    rfl
  · have houtside : ¬ ((n : Int).natAbs < Duration.perSecond ∧
        (t.fraction + n : Int) < 2 * Duration.perSecond) := by omega
    rw [if_neg (by simp), if_neg houtside, if_pos (by omega), if_neg hstays]

theorem nanoseconds_ofNanoseconds (n : Int) :
    (ofNanoseconds n).nanoseconds = n ∧ (ofNanoseconds n).fraction < Duration.perSecond := by
  simp only [nanoseconds, ofNanoseconds, Duration.perSecond]
  omega

/-- **Where moving forwards leads**: on from an instant outside of leap seconds, on inside a leap
second, or out of one. -/
theorem shifted_cases (hfraction : t.fraction < 2 * Duration.perSecond) (n : Nat) :
    (t.fraction < Duration.perSecond ∧ (t.shifted n).fraction < Duration.perSecond ∧
        (t.shifted n).nanoseconds = t.nanoseconds + n) ∨
      (Duration.perSecond ≤ t.fraction ∧ t.fraction + n < 2 * Duration.perSecond ∧
        (t.shifted n).second = t.second ∧ (t.shifted n).fraction = t.fraction + n) ∨
      (Duration.perSecond ≤ t.fraction ∧ 2 * Duration.perSecond ≤ t.fraction + n ∧
        (t.shifted n).fraction < Duration.perSecond ∧
        (t.shifted n).nanoseconds = t.nanoseconds - Duration.perSecond + n) := by
  cases hleap : t.isLeap with
  | false =>
    obtain ⟨hnumber, hsmall⟩ := nanoseconds_ofNanoseconds (t.nanoseconds + n)
    rw [shifted_of_not_leap hleap]
    exact .inl ⟨not_isLeap_iff.mp hleap, hsmall, hnumber⟩
  | true =>
    rw [shifted_of_leap hleap hfraction]
    by_cases hstays : t.fraction + n < 2 * Duration.perSecond
    · rw [if_pos hstays]
      exact .inr (.inl ⟨isLeap_iff.mp hleap, hstays, rfl, rfl⟩)
    · obtain ⟨hnumber, hsmall⟩ :=
        nanoseconds_ofNanoseconds (t.nanoseconds - Duration.perSecond + n)
      rw [if_neg hstays]
      exact .inr (.inr ⟨isLeap_iff.mp hleap, Nat.le_of_not_lt hstays, hsmall, hnumber⟩)

/-- **There is one instant that comes a span after another.** -/
theorem after_iff {d : Duration} (hfraction : now.fraction < 2 * Duration.perSecond) :
    now.After d t ↔ t = now.shifted d.nanoseconds := by
  have hcases := shifted_cases hfraction d.nanoseconds
  generalize now.shifted d.nanoseconds = sum at hcases ⊢
  constructor
  · rintro ⟨helapsed, hleap, hproper⟩
    have hcolumns : t.second = sum.second ∧ t.fraction = sum.fraction := by
      simp only [elapsed, isLeap_iff, nanoseconds, Duration.perSecond] at *
      split at helapsed <;> omega
    obtain ⟨second, fraction⟩ := sum
    obtain ⟨rfl, rfl⟩ := hcolumns
    rfl
  · rintro rfl
    refine ⟨?_, fun hleap => ?_, ?_⟩
    · simp only [elapsed, isLeap_iff, nanoseconds, Duration.perSecond] at *
      split <;> omega
    · simp only [isLeap_iff, nanoseconds, Duration.perSecond] at *
      omega
    · omega

theorem le_shifted (hfraction : t.fraction < 2 * Duration.perSecond) (n : Nat) :
    t ≤ t.shifted n := by
  have hcases := shifted_cases hfraction n
  simp only [le_iff, nanoseconds, Duration.perSecond] at *
  omega

theorem shifted_le_shifted (hfraction : t.fraction < 2 * Duration.perSecond) {n n' : Nat}
    (h : n ≤ n') : t.shifted n ≤ t.shifted n' := by
  have hcases := shifted_cases hfraction n
  have hcases' := shifted_cases hfraction n'
  simp only [le_iff, nanoseconds, Duration.perSecond] at *
  omega

/-! ### A clock that enters a leap second -/

/-- One instant is in front of a leap second, and another in it and less than a second later. -/
def EntersLeap (now now' : Instant) : Prop :=
  now.isLeap = false ∧ now'.isLeap = true ∧ now'.second = now.second ∧
    now'.fraction < now.fraction + Duration.perSecond

/-- **A later instant has later sums**, unless a leap second has begun between the two. -/
theorem shifted_le_of_le (hfraction : now.fraction < 2 * Duration.perSecond)
    (hfraction' : now'.fraction < 2 * Duration.perSecond) (hle : now ≤ now')
    (henters : ¬ now.EntersLeap now') (n : Nat) : now.shifted n ≤ now'.shifted n := by
  have hcases := shifted_cases hfraction n
  have hcases' := shifted_cases hfraction' n
  simp only [EntersLeap, isLeap_iff, not_isLeap_iff, le_iff, nanoseconds, Duration.perSecond] at *
  omega

/-- A second after an instant in front of a leap second is later than a second after one that is
less than a second into it. -/
theorem EntersLeap.not_le (henters : now.EntersLeap now')
    (hfraction' : now'.fraction < 2 * Duration.perSecond) :
    ¬ now.shifted Duration.perSecond ≤ now'.shifted Duration.perSecond := by
  obtain ⟨hleap, hleap', hsecond, hless⟩ := henters
  have hsmall := not_isLeap_iff.mp hleap
  have hcases := shifted_cases (t := now) (by omega) Duration.perSecond
  have hcases' := shifted_cases hfraction' Duration.perSecond
  simp only [isLeap_iff, le_iff, nanoseconds, Duration.perSecond] at *
  omega

/-! ### The end of the range -/

/-- The instant, or the end of the range if that is earlier. -/
def capped (t : Instant) : Instant :=
  if t ≤ greatest then t else greatest

theorem capped_of_le (h : t ≤ greatest) : t.capped = t :=
  if_pos h

theorem capped_le (t : Instant) : t.capped ≤ greatest := by
  unfold capped
  split
  · assumption
  · exact le_rfl

theorem le_capped (h : t ≤ t') (hmax : t ≤ greatest) : t ≤ t'.capped := by
  unfold capped
  split
  · exact h
  · exact hmax

theorem capped_le_capped (h : t ≤ t') : t.capped ≤ t'.capped := by
  unfold capped
  split
  · rename_i hmax
    split
    · exact h
    · exact hmax
  · rename_i hmax
    rw [if_neg fun hmax' => hmax (le_trans h hmax')]
    exact le_rfl

/-- What clocks show, as far as schedules go: the leap second at the very end of the range lies
beyond it. -/
structure Representable (t : Instant) : Prop where
  inRange : t.InRange
  le_greatest : t ≤ greatest

theorem second_least : least.second = -8334601228800 := by decide

theorem greatest_eq : greatest = ⟨8210266876799, 999999999⟩ := by decide

section Representable

variable (h : now.Representable)

include h

theorem Representable.inRange_shifted_iff (n : Nat) :
    (now.shifted n).InRange ↔ now.shifted n ≤ greatest := by
  obtain ⟨⟨hleast, -, hfraction⟩, hmax⟩ := h
  have hcases := shifted_cases hfraction n
  simp only [InRange, le_iff, greatest_eq, second_least, nanoseconds, Duration.perSecond] at *
  omega

/-- **The longest span reaches from everywhere beyond the end.** -/
theorem Representable.not_shifted_le {n : Nat} (hn : longestMillis * Duration.perMilli ≤ n) :
    ¬ now.shifted n ≤ greatest := by
  obtain ⟨⟨hleast, -, hfraction⟩, -⟩ := h
  have hcases := shifted_cases hfraction n
  have hlongest : longestMillis * Duration.perMilli = 9223372036854775807000000 := by decide
  rw [hlongest] at hn
  simp only [le_iff, greatest_eq, second_least, nanoseconds, Duration.perSecond] at *
  omega

theorem Representable.shift_eq (n : Nat) :
    (match now.shift n with | .ok later => later | .error _ => greatest) =
      (now.shifted n).capped := by
  simp only [shift, capped, h.inRange_shifted_iff]
  split
  · rename_i heq
    split at heq
    · rw [if_pos ‹_›]
      exact (Except.ok.inj heq).symm
    · cases heq
  · rename_i heq
    split at heq
    · cases heq
    · rw [if_neg ‹_›]

/-- **A refused span loses nothing**: the sum is exact, or the end of the range. -/
theorem Representable.plus_eq (d : Duration) :
    now.plus d = (now.shifted d.nanoseconds).capped := by
  unfold plus
  split
  · exact h.shift_eq d.nanoseconds
  · rename_i hlong
    rw [capped, if_neg (h.not_shifted_le (by omega))]

theorem Representable.plusAtMost_eq (d : Duration) :
    now.plusAtMost d = (now.shifted d.nanoseconds).capped := by
  refine (h.shift_eq _).trans ?_
  by_cases hlong : longestMillis * Duration.perMilli ≤ d.nanoseconds
  · rw [Nat.min_eq_right hlong, capped, capped, if_neg (h.not_shifted_le (Nat.le_refl _)),
      if_neg (h.not_shifted_le hlong)]
  · rw [Nat.min_eq_left (by omega)]

theorem Representable.le_plus (d : Duration) : now ≤ now.plus d := by
  rw [h.plus_eq]
  exact le_capped (le_shifted h.inRange.2.2 _) h.le_greatest

theorem Representable.plus_le_plus {d d' : Duration} (hle : d ≤ d') : now.plus d ≤ now.plus d' := by
  rw [h.plus_eq, h.plus_eq]
  exact capped_le_capped (shifted_le_shifted h.inRange.2.2 hle)

theorem Representable.plus (d : Duration) : (now.plus d).Representable := by
  rw [h.plus_eq]
  refine ⟨?_, capped_le _⟩
  unfold capped
  split
  · exact (h.inRange_shifted_iff _).mpr ‹_›
  · decide

/-- **When later clock times have later sums.** -/
theorem Representable.plus_le_plus_iff (h' : now'.Representable) (hle : now ≤ now') :
    (∀ d, now.plus d ≤ now'.plus d) ↔ ¬ now.EntersLeap now' := by
  constructor
  · intro hall henters
    have hnot := henters.not_le h'.inRange.2.2
    have hearly : now.shifted Duration.perSecond ≤ greatest := by
      obtain ⟨hleap, hleap', hsame, -⟩ := henters
      have hcases := shifted_cases h.inRange.2.2 Duration.perSecond
      have hend := h'.le_greatest
      simp only [isLeap_iff, not_isLeap_iff, le_iff, greatest_eq, nanoseconds, Duration.perSecond]
        at *
      omega
    have hearly' := le_trans (le_of_not_le hnot) hearly
    have hsecond := hall ⟨Duration.perSecond⟩
    rw [h.plus_eq, h'.plus_eq, capped_of_le hearly, capped_of_le hearly'] at hsecond
    exact hnot hsecond
  · intro henters d
    rw [h.plus_eq, h'.plus_eq]
    exact capped_le_capped (shifted_le_of_le h.inRange.2.2 h'.inRange.2.2 hle henters _)

end Representable

end EventRelay.Instant
