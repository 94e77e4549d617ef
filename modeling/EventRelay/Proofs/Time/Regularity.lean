import EventRelay.Proofs.Time.DateTexts

/-!
# Regular instants

The instants that texts stand for are the regular ones, and each of these has a text
(`regular_iff`).  Moving an instant keeps it regular, for a leap second is only ever entered by
reading it: what is moved stays inside its leap second or lies in none.  So the clock, the documents
and all that is reckoned from their times hold regular instants.
-/

namespace EventRelay.Instant

/-! ### What is read -/

theorem digit?_le_nine {c : Char} {d : Nat} (h : digit? c = some d) : d ≤ 9 := by
  unfold digit? at h
  split at h
  · rename_i hrange
    obtain rfl := Option.some.inj h
    have hnine : c.toNat ≤ 57 := UInt32.le_iff_toNat_le.mp (Char.le_def.mp hrange.2)
    omega
  · cases h

theorem leadingDigits_bounds (most : Nat) (cs : List Char) (start : Nat) :
    (leadingDigits most cs).1.length ≤ most ∧
      (leadingDigits most cs).1.foldl (fun n d => n * 10 + d) start <
        (start + 1) * pow10 (leadingDigits most cs).1.length := by
  induction most generalizing cs start with
  | zero => exact ⟨Nat.le_refl 0, by simp [leadingDigits, pow10]⟩
  | succ most ih =>
    cases cs with
    | nil => exact ⟨Nat.zero_le _, by simp [leadingDigits, pow10]⟩
    | cons c cs =>
      rw [leadingDigits]
      cases hdigit : digit? c with
      | none => exact ⟨Nat.zero_le _, by simp [pow10]⟩
      | some d =>
        obtain ⟨hlength, hvalue⟩ := ih cs (start * 10 + d)
        have hnine := digit?_le_nine hdigit
        refine ⟨Nat.succ_le_succ hlength, Nat.lt_of_lt_of_le hvalue ?_⟩
        have hten (k : Nat) : pow10 (k + 1) = 10 * pow10 k := Nat.pow_succ'
        rw [List.length_cons, hten, ← Nat.mul_assoc]
        exact Nat.mul_le_mul_right _ (by omega)

theorem readFraction_lt {cs rest : List Char} {n : Nat} (h : readFraction cs = .ok (n, rest)) :
    n < Duration.perSecond := by
  unfold readFraction at h
  split at h
  · rename_i text
    obtain ⟨hlength, hvalue⟩ := leadingDigits_bounds 9 text 0
    generalize leadingDigits 9 text = read at *
    obtain ⟨_ | ⟨d, ds⟩, more⟩ := read
    · cases more <;> cases h
    · cases h
      rw [Nat.zero_add, Nat.one_mul] at hvalue
      have hplaces : pow10 (d :: ds).length * pow10 (9 - (d :: ds).length) = pow10 9 := by
        rw [pow10, pow10, pow10, Nat.pow_eq, Nat.pow_eq, ← Nat.pow_add, Nat.add_sub_cancel' hlength]
      have hnine : pow10 9 = Duration.perSecond := by decide
      rw [← hnine, ← hplaces]
      exact Nat.mul_lt_mul_of_pos_right hvalue (Nat.pow_pos (by decide))
  · cases h
    decide

/-- What a text says is an instant in a leap second only if that is the last one of its minute. -/
theorem regular_of_ofParts {date : Date} {hour minute second nanosecond : Nat} {offset : Int}
    (hnanosecond : nanosecond < Duration.perSecond) {t : Instant}
    (h : ofParts date hour minute second nanosecond offset = .ok t) : t.Regular := by
  unfold ofParts at h
  split at h
  · cases h
  · split at h
    · cases h
    · dsimp only at h
      split at h
      · rename_i hrange
        cases h
        refine ⟨hrange, fun hleap => ?_⟩
        rw [isLeap_iff] at hleap
        unfold Duration.perSecond at *
        unfold perDay
        dsimp only at hleap ⊢
        omega
      · cases h

/-- **What is read is regular.** -/
theorem regular_of_ofText {s : String} {t : Instant} (h : ofText s = .ok t) : t.Regular := by
  obtain ⟨⟨year, rest⟩, -, h⟩ := exists_of_bind_ok h
  obtain ⟨rest, -, h⟩ := exists_of_bind_ok h
  obtain ⟨⟨month, rest⟩, -, h⟩ := exists_of_bind_ok h
  obtain ⟨rest, -, h⟩ := exists_of_bind_ok h
  obtain ⟨⟨day, rest⟩, -, h⟩ := exists_of_bind_ok h
  obtain ⟨rest, -, h⟩ := exists_of_bind_ok h
  obtain ⟨⟨hour, rest⟩, -, h⟩ := exists_of_bind_ok h
  obtain ⟨rest, -, h⟩ := exists_of_bind_ok h
  obtain ⟨⟨minute, rest⟩, -, h⟩ := exists_of_bind_ok h
  obtain ⟨rest, -, h⟩ := exists_of_bind_ok h
  obtain ⟨⟨second, rest⟩, -, h⟩ := exists_of_bind_ok h
  obtain ⟨⟨nanosecond, rest⟩, hnanosecond, h⟩ := exists_of_bind_ok h
  obtain ⟨⟨offset, rest⟩, -, h⟩ := exists_of_bind_ok h
  dsimp only at h
  split at h
  · exact regular_of_ofParts (readFraction_lt hnanosecond) h
  · cases h

/-- **The regular instants are those that texts stand for.** -/
theorem regular_iff {t : Instant} : t.Regular ↔ ∃ s, ofText s = .ok t :=
  ⟨fun h => ⟨t.write, ofText_write h⟩, fun ⟨_, h⟩ => regular_of_ofText h⟩

/-! ### What is reckoned -/

variable {t : Instant}

theorem isLeap_ofNanoseconds (n : Int) : (ofNanoseconds n).isLeap = false := by
  rw [not_isLeap_iff, ofNanoseconds]
  unfold Duration.perSecond
  dsimp only
  omega

theorem second_shifted {n : Int} (h : (t.shifted n).isLeap = true) :
    t.isLeap = true ∧ (t.shifted n).second = t.second := by
  unfold shifted at h ⊢
  split
  · rename_i hleap
    rw [if_pos hleap, isLeap_ofNanoseconds] at h
    cases h
  · rename_i hleap
    rw [if_neg hleap] at h
    split
    · exact ⟨by simpa using hleap, rfl⟩
    · rename_i hinside
      rw [if_neg hinside] at h
      split at h
      · rw [isLeap_ofNanoseconds] at h
        cases h
      · rw [isLeap_ofNanoseconds] at h
        cases h

theorem Regular.shift {n : Int} {later : Instant} (h : t.Regular) (hshift : t.shift n = .ok later) :
    later.Regular := by
  unfold Instant.shift at hshift
  dsimp only at hshift
  split at hshift
  · rename_i hrange
    cases hshift
    refine ⟨hrange, fun hleap => ?_⟩
    obtain ⟨hbefore, hsecond⟩ := second_shifted hleap
    rw [hsecond]
    exact h.leap hbefore
  · cases hshift

theorem regular_greatest : greatest.Regular :=
  ⟨by decide, fun h => absurd h (by decide)⟩

theorem Regular.plus (h : t.Regular) (d : Duration) : (t.plus d).Regular := by
  unfold Instant.plus
  split
  · split
    · rename_i hshift
      exact h.shift hshift
    · exact regular_greatest
  · exact regular_greatest

theorem Regular.plusAtMost (h : t.Regular) (d : Duration) : (t.plusAtMost d).Regular := by
  unfold Instant.plusAtMost
  split
  · rename_i hshift
    exact h.shift hshift
  · exact regular_greatest

end EventRelay.Instant
