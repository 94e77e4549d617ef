import EventRelay.Time.Calendar

/-!
# The calendar, there and back

Every number of a day belongs to a day that exists (`isValid_ofDays`), whose number it is
(`toDays_ofDays`).

A cycle of 400 years is four centuries, a century 25 spans of four years, and a span four years.  All
of these have a fixed number of days, but for the last of each kind: the last year of a span has its
leap day, the last span of a century has none, and the last century of a cycle has one again
(`Parts`).  The year of a day is reckoned with one division all the same, of a number from which the
leap days are taken out first (`Parts.Proper.yearOfCycle_eq`).
-/

namespace EventRelay.Date

/-! ### Parts of the cycle -/

/-- A day of the cycle by its century, its span of four years, its year in the span, and its place in
the year. -/
structure Parts where
  century : Nat
  span : Nat
  year : Nat
  day : Nat

namespace Parts

def dayOfCycle (p : Parts) : Nat :=
  36524 * p.century + 1461 * p.span + 365 * p.year + p.day

def yearOfCycle (p : Parts) : Nat :=
  100 * p.century + 4 * p.span + p.year

/-- A year has 365 days, and a leap day if it is the last of its span.  The last span of a century has
such a day only in the last century. -/
structure Proper (p : Parts) : Prop where
  century : p.century ≤ 3
  span : p.span ≤ 24
  year : p.year ≤ 3
  day : p.day < 365 ∨ p.day = 365 ∧ p.year = 3 ∧ (p.span < 24 ∨ p.century = 3)

theorem exists_proper {n : Nat} (h : n < 146097) : ∃ p : Parts, p.Proper ∧ p.dayOfCycle = n := by
  by_cases hlast : n = 146096
  · exact ⟨⟨3, 24, 3, 365⟩, ⟨by decide, by decide, by decide, by decide⟩, hlast.symm⟩
  · by_cases hleap : n % 36524 % 1461 = 1460
    · refine ⟨⟨n / 36524, n % 36524 / 1461, 3, 365⟩, ⟨?_, ?_, Nat.le_refl 3, .inr ⟨rfl, rfl, ?_⟩⟩, ?_⟩
      · show n / 36524 ≤ 3
        omega
      · show n % 36524 / 1461 ≤ 24
        omega
      · show n % 36524 / 1461 < 24 ∨ n / 36524 = 3
        omega
      · show 36524 * (n / 36524) + 1461 * (n % 36524 / 1461) + 365 * 3 + 365 = n
        omega
    · refine ⟨⟨n / 36524, n % 36524 / 1461, n % 36524 % 1461 / 365, n % 36524 % 1461 % 365⟩,
        ⟨?_, ?_, ?_, ?_⟩, ?_⟩ <;> simp only [dayOfCycle] <;> omega

namespace Proper

variable {p : Parts}

theorem yearOfCycle_lt (h : p.Proper) : p.yearOfCycle < 400 := by
  obtain ⟨hcentury, hspan, hyear, -⟩ := h
  unfold yearOfCycle
  omega

theorem day_le (h : p.Proper) : p.day ≤ 365 := by
  have := h.day
  omega

theorem dayOfCycle_eq (h : p.Proper) :
    p.dayOfCycle =
      365 * p.yearOfCycle + p.yearOfCycle / 4 - p.yearOfCycle / 100 + p.day := by
  obtain ⟨hcentury, hspan, hyear, -⟩ := h
  unfold dayOfCycle yearOfCycle
  omega

/-- **The year of a day of the cycle**, by one division. -/
theorem yearOfCycle_eq (h : p.Proper) :
    (p.dayOfCycle - p.dayOfCycle / 1460 + p.dayOfCycle / 36524 - p.dayOfCycle / 146096) / 365 =
      p.yearOfCycle := by
  obtain ⟨century, span, year, day⟩ := p
  obtain ⟨hcentury, hspan, hyear, hday⟩ := h
  simp only [dayOfCycle, yearOfCycle] at *
  generalize hn : 36524 * century + 1461 * span + 365 * year + day = n
  -- every span before the day counts once, and its own span once its leap day is reached
  have hspans :
      n / 1460 = 25 * century + span + (24 * century + span + 365 * year + day) / 1460 := by omega
  by_cases hlast : n = 146096
  · omega
  · have hcenturies : n / 36524 = century := by omega
    have hcycle : n / 146096 = 0 := by omega
    omega

/-- Only leap years have a leap day.  The year that is told is the one to which the day belongs that
follows at the end of the year. -/
theorem isLeapYear (h : p.Proper) (cycle : Int) (hday : p.day = 365) :
    isLeapYear (cycle * 400 + p.yearOfCycle + 1) = true := by
  obtain ⟨century, span, year, day⟩ := p
  obtain ⟨hcentury, hspan, hyear, hlast⟩ := h
  simp only [yearOfCycle] at *
  generalize hn : 100 * century + 4 * span + year = n
  have hleap : (cycle * 400 + (n : Int) + 1) % 4 = 0 ∧
      ((cycle * 400 + (n : Int) + 1) % 100 ≠ 0 ∨ (cycle * 400 + (n : Int) + 1) % 400 = 0) := by
    omega
  simpa [Date.isLeapYear] using hleap

end Proper

end Parts

/-! ### Months -/

/-- The number of a month, by its place in a year that begins with March. -/
def monthOf (fromMarch : Nat) : Nat :=
  if fromMarch < 10 then fromMarch + 3 else fromMarch - 9

theorem daysInMonth_monthOf (year : Int) : ∀ m ≤ 10,
    daysInMonth year (monthOf m) = daysBeforeMonth (m + 1) - daysBeforeMonth m
  | 0, _ | 1, _ | 2, _ | 3, _ | 4, _ | 5, _ | 6, _ | 7, _ | 8, _ | 9, _ | 10, _ => rfl
  | m + 11, h => absurd h (by omega)

theorem monthOf_bounds {m : Nat} (h : m ≤ 11) : 1 ≤ monthOf m ∧ monthOf m ≤ 12 := by
  unfold monthOf
  split <;> omega

theorem monthOf_le_two_iff {m : Nat} (h : m ≤ 11) : monthOf m ≤ 2 ↔ 10 ≤ m := by
  unfold monthOf
  split <;> omega

/-- A day of the year lies in one of twelve months, and not before the first of that month nor after
the last. -/
theorem month_bounds {day : Nat} (h : day ≤ 365) :
    (5 * day + 2) / 153 ≤ 11 ∧ daysBeforeMonth ((5 * day + 2) / 153) ≤ day ∧
      day < daysBeforeMonth ((5 * day + 2) / 153 + 1) := by
  unfold daysBeforeMonth
  omega

/-! ### Days and their numbers -/

/-- The day with a number, by the parts of its cycle.  January and February belong to the year that
the next March goes on with. -/
theorem ofDays_eq (n : Int) :
    ∃ (cycle : Int) (p : Parts) (m : Nat), p.Proper ∧ n + epochOffset = cycle * 146097 + p.dayOfCycle ∧
      m = (5 * p.day + 2) / 153 ∧
      ofDays n = ⟨cycle * 400 + p.yearOfCycle + (if 10 ≤ m then 1 else 0), monthOf m,
        p.day - daysBeforeMonth m + 1⟩ := by
  obtain ⟨p, hp, hday⟩ :=
    Parts.exists_proper (n := ((n + epochOffset) % 146097).toNat) (by omega)
  refine ⟨(n + epochOffset) / 146097, p, _, hp, by omega, rfl, ?_⟩
  have hyear := hp.yearOfCycle_eq
  have hrest : p.dayOfCycle -
      (365 * p.yearOfCycle + p.yearOfCycle / 4 - p.yearOfCycle / 100) = p.day := by
    have := hp.dayOfCycle_eq
    omega
  have hmonth := monthOf_le_two_iff (month_bounds hp.day_le).1
  unfold monthOf at hmonth
  rw [hday] at hyear hrest
  simp only [ofDays, hyear, hrest, hmonth]
  rfl

/-- **The number of the day with a number is this number.** -/
theorem toDays_ofDays (n : Int) : (ofDays n).toDays = n := by
  obtain ⟨cycle, p, m, hp, hn, hm, heq⟩ := ofDays_eq n
  obtain ⟨hlast, hfirst, -⟩ := month_bounds hp.day_le
  have hdays := hp.dayOfCycle_eq
  have hyear := hp.yearOfCycle_lt
  rw [← hm] at hlast hfirst
  have hback : (monthOf m + 9) % 12 = m := by
    unfold monthOf
    split <;> omega
  rw [heq, toDays]
  simp only [hback, monthOf_le_two_iff hlast]
  unfold epochOffset at *
  split <;> omega

/-- **Every number is that of a day that exists.** -/
theorem isValid_ofDays (n : Int) : (ofDays n).isValid = true := by
  obtain ⟨cycle, p, m, hp, -, hm, heq⟩ := ofDays_eq n
  obtain ⟨hlast, hfirst, hnext⟩ := month_bounds hp.day_le
  rw [← hm] at hlast hfirst hnext
  obtain ⟨hleast, hgreatest⟩ := monthOf_bounds hlast
  have hdays : p.day - daysBeforeMonth m + 1 ≤
      daysInMonth (cycle * 400 + p.yearOfCycle + (if 10 ≤ m then 1 else 0)) (monthOf m) := by
    by_cases hfebruary : m = 11
    · subst hfebruary
      have hbefore : daysBeforeMonth 11 = 337 := rfl
      have hmonth : monthOf 11 = 2 := rfl
      rw [hmonth, if_pos (by decide), daysInMonth, if_pos rfl, hbefore]
      by_cases hleap : p.day = 365
      · rw [hp.isLeapYear cycle hleap]
        simp [hleap]
      · have := hp.day_le
        split <;> omega
    · rw [daysInMonth_monthOf _ m (by omega)]
      omega
  rw [heq]
  simp only [isValid, Bool.and_eq_true, decide_eq_true_eq]
  exact ⟨⟨⟨hleast, hgreatest⟩, Nat.le_add_left ..⟩, hdays⟩

/-! ### Years -/

def leapDays (year : Int) : Int :=
  year / 4 - year / 100 + year / 400

theorem leapDays_le {year year' : Int} (h : year ≤ year') : leapDays year ≤ leapDays year' := by
  have hsplit (y : Int) : leapDays y = 24 * (y / 100) + y / 100 / 4 + y % 100 / 4 := by
    unfold leapDays
    omega
  rw [hsplit, hsplit]
  by_cases hcentury : year / 100 = year' / 100 <;> omega

/-- The number of the first day of a year, of which 306 days are over that are reckoned with the year
before. -/
theorem toDays_first (year : Int) :
    toDays ⟨year, 1, 1⟩ = 365 * (year - 1) + leapDays (year - 1) + 306 - epochOffset := by
  have hmonth : (1 + 9) % 12 = 10 := rfl
  have hbefore : daysBeforeMonth 10 = 306 := rfl
  rw [toDays, leapDays]
  simp only [hmonth, hbefore, if_pos (show 1 ≤ 2 by decide)]
  omega

/-- **A day lies in a year or after it exactly if it is not before the first day of the year.** -/
theorem le_year_ofDays_iff {year n : Int} : year ≤ (ofDays n).year ↔ toDays ⟨year, 1, 1⟩ ≤ n := by
  obtain ⟨cycle, p, m, hp, hn, hm, heq⟩ := ofDays_eq n
  have hday := hp.day_le
  have hnumber : n = 365 * (cycle * 400 + p.yearOfCycle) +
      leapDays (cycle * 400 + p.yearOfCycle) + p.day - epochOffset := by
    have hdays := hp.dayOfCycle_eq
    have hyear := hp.yearOfCycle_lt
    unfold leapDays
    omega
  rw [heq, toDays_first, hnumber]
  generalize cycle * 400 + (p.yearOfCycle : Int) = current
  dsimp only
  have hbefore : year - 1 ≤ current → leapDays (year - 1) ≤ leapDays current := leapDays_le
  have hafter : current ≤ year - 1 → leapDays current ≤ leapDays (year - 1) := leapDays_le
  split <;> omega

end EventRelay.Date
