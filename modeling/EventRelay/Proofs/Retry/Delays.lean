import EventRelay.Retry

/-!
# Delays that can be reckoned

Exponential backoff multiplies doubles, and a product that comes out negative is no span of time.
With a multiplier that is not negative this does not happen (`Backoff.time_ok`), and a validated
configuration has such a multiplier (`RetryRule.multiplier_of_ofConfig`).  Multipliers that are no
number or infinite are among those allowed, and so is a zero with a negative sign.

Signs are followed through the operations of the double format: rounding keeps the sign that it is
given, and so does packing into bits.
-/

namespace EventRelay

open Float.Model Float.Model.UnpackedFloat

namespace Signs

/-- Whether a number is less than zero.  A zero is not, whatever its sign. -/
def IsNegative : UnpackedFloat → Prop
  | .infinity s | .finite s _ _ _ => s = .negative
  | .zero _ | .notANumber => False

/-! ### Bits -/

theorem sign_packComponents {spec : Format} (sign : Sign) (exponent : BitVec spec.exponentBits)
    (mantissa : BitVec spec.mantissaBitsWithoutImplicit) :
    Sign.ofBitVec (unpackSign (packComponents spec sign exponent mantissa)) = sign := by
  have hbit : unpackSign (packComponents spec sign exponent mantissa) = sign.toBitVec := by
    ext i hi
    obtain rfl : i = 0 := by omega
    delta unpackSign packComponents
    simp [BitVec.getLsbD_eq_getElem, BitVec.getLsbD_append,
      BitVec.getElem_append]
  rw [hbit]
  cases sign <;> rfl

theorem isNegative_ite {c : Prop} [Decidable c] {u v : UnpackedFloat}
    (h : IsNegative (if c then u else v)) : IsNegative u ∨ IsNegative v := by
  by_cases hc : c
  · rw [if_pos hc] at h
    exact .inl h
  · rw [if_neg hc] at h
    exact .inr h

theorem isNegative_dite {c : Prop} [Decidable c] {u : c → UnpackedFloat} {v : ¬ c → UnpackedFloat}
    (h : IsNegative (if hc : c then u hc else v hc)) :
    (∃ hc, IsNegative (u hc)) ∨ ∃ hc, IsNegative (v hc) := by
  by_cases hc : c
  · rw [dif_pos hc] at h
    exact .inl ⟨hc, h⟩
  · rw [dif_neg hc] at h
    exact .inr ⟨hc, h⟩

theorem sign_of_unpack {spec : Format} {bits : BitVec spec.numBits}
    (h : IsNegative (UnpackedFloat.unpack spec bits)) :
    Sign.ofBitVec (unpackSign bits) = .negative := by
  unfold UnpackedFloat.unpack at h
  dsimp only at h
  rcases isNegative_ite h with h | h
  · rcases isNegative_ite h with h | h
    · exact h
    · exact h.elim
  · rcases isNegative_ite h with h | h
    · rcases isNegative_dite h with ⟨_, h⟩ | ⟨_, h⟩
      · exact h.elim
      · exact h
    · exact h

theorem isNegative_of_pack {u : UnpackedFloat} (h : IsNegative (Float.Model.pack u).unpack) :
    IsNegative u := by
  have hsign := sign_of_unpack h
  change Sign.ofBitVec (unpackSign (UnpackedFloat.pack .binary64 u)) = .negative at hsign
  cases u with
  | notANumber => exact absurd ((sign_packComponents ..).symm.trans hsign) nofun
  | infinity s => exact (sign_packComponents ..).symm.trans hsign
  | zero s =>
    obtain rfl : s = .negative := (sign_packComponents ..).symm.trans hsign
    exact h
  | finite s m e hm =>
    unfold UnpackedFloat.pack at hsign
    simp only at hsign
    split at hsign
    · exact (sign_packComponents ..).symm.trans hsign
    · split at hsign
      · exact (sign_packComponents ..).symm.trans hsign
      · exact (sign_packComponents ..).symm.trans hsign

/-! ### Operations -/

section Operations

variable {a b : UnpackedFloat} {spec : Format}

theorem not_isNegative_round (mantissa : Nat) (exponent : Int) (accuracy : Accuracy) :
    ¬ IsNegative (roundWithAccuracy spec .positive mantissa exponent accuracy) := by
  intro h
  unfold roundWithAccuracy at h
  dsimp only at h
  rcases isNegative_dite h with ⟨_, h⟩ | ⟨_, h⟩
  · exact h
  · cases h

theorem not_isNegative_normalize {mantissa : Int} (h : 0 ≤ mantissa) (exponent : Int) (zero : Sign) :
    ¬ IsNegative (UnpackedFloat.normalize spec mantissa exponent zero) := by
  unfold UnpackedFloat.normalize
  split
  · rename_i hlt
    exact absurd (Int.compare_eq_lt.mp hlt) (Int.not_lt.mpr h)
  · exact id
  · exact not_isNegative_round _ _ _

theorem cases_of_not_isNegative (h : ¬ IsNegative a) :
    a = .notANumber ∨ (∃ s, a = .zero s) ∨ a = .infinity .positive ∨
      ∃ m e hm, a = .finite .positive m e hm := by
  cases a with
  | notANumber => exact .inl rfl
  | zero s => exact .inr (.inl ⟨s, rfl⟩)
  | infinity s =>
    cases s with
    | negative => exact absurd rfl h
    | positive => exact .inr (.inr (.inl rfl))
  | finite s m e hm =>
    cases s with
    | negative => exact absurd rfl h
    | positive => exact .inr (.inr (.inr ⟨m, e, hm, rfl⟩))

theorem not_isNegative_mul (ha : ¬ IsNegative a) (hb : ¬ IsNegative b) :
    ¬ IsNegative (mul spec a b) := by
  obtain rfl | ⟨s, rfl⟩ | rfl | ⟨m, e, hm, rfl⟩ := cases_of_not_isNegative ha
  · exact id
  · obtain rfl | ⟨s', rfl⟩ | rfl | ⟨m', e', hm', rfl⟩ := cases_of_not_isNegative hb
    all_goals exact id
  · obtain rfl | ⟨s', rfl⟩ | rfl | ⟨m', e', hm', rfl⟩ := cases_of_not_isNegative hb
    all_goals exact nofun
  · obtain rfl | ⟨s', rfl⟩ | rfl | ⟨m', e', hm', rfl⟩ := cases_of_not_isNegative hb
    · exact id
    · exact id
    · exact nofun
    · exact not_isNegative_round _ _ _

theorem not_isNegative_add (ha : ¬ IsNegative a) (hb : ¬ IsNegative b) :
    ¬ IsNegative (add spec a b) := by
  obtain rfl | ⟨s, rfl⟩ | rfl | ⟨m, e, hm, rfl⟩ := cases_of_not_isNegative ha
  · exact id
  · obtain rfl | ⟨s', rfl⟩ | rfl | ⟨m', e', hm', rfl⟩ := cases_of_not_isNegative hb
    · exact id
    · show ¬ IsNegative (if s == s' then .zero s else .zero .positive)
      split
      · exact id
      · exact id
    · exact nofun
    · exact nofun
  · obtain rfl | ⟨s', rfl⟩ | rfl | ⟨m', e', hm', rfl⟩ := cases_of_not_isNegative hb
    all_goals exact nofun
  · obtain rfl | ⟨s', rfl⟩ | rfl | ⟨m', e', hm', rfl⟩ := cases_of_not_isNegative hb
    · exact id
    · exact nofun
    · exact nofun
    · exact not_isNegative_normalize (Int.add_nonneg (Int.natCast_nonneg _) (Int.natCast_nonneg _)) _ _

theorem not_isNegative_div (ha : ¬ IsNegative a) {m : Nat} {e : Int} (hm : 0 < m) :
    ¬ IsNegative (div spec a (.finite .positive m e hm)) := by
  obtain rfl | ⟨s, rfl⟩ | rfl | ⟨m, e, hm, rfl⟩ := cases_of_not_isNegative ha
  · exact id
  · exact id
  · exact nofun
  · exact not_isNegative_round _ _ _

end Operations

/-! ### Doubles -/

section Doubles

variable {x y : Float}

theorem lt_zero_iff : x < 0.0 ↔ IsNegative x.toModel.unpack := by
  have hzero : (0.0 : Float).toModel.unpack = .zero .positive := by rfl
  show decide ((x.toModel.unpack.lt (0.0 : Float).toModel.unpack : Bool) = true) = true ↔ _
  rw [hzero]
  cases x.toModel.unpack with
  | notANumber => exact ⟨nofun, nofun⟩
  | zero s => exact ⟨nofun, nofun⟩
  | infinity s =>
    cases s with
    | negative => exact iff_of_true rfl rfl
    | positive => exact ⟨nofun, nofun⟩
  | finite s m e hm =>
    cases s with
    | negative => exact iff_of_true rfl rfl
    | positive => exact ⟨nofun, nofun⟩

theorem le_one_of_lt_zero (h : x < 0.0) : x ≤ 1.0 := by
  have hone : (1.0 : Float).toModel.unpack =
      .finite .positive 4503599627370496 (-52) (by decide) := by rfl
  rw [lt_zero_iff] at h
  show decide ((x.toModel.unpack.le (1.0 : Float).toModel.unpack : Bool) = true) = true
  rw [hone]
  revert h
  cases x.toModel.unpack with
  | notANumber | zero s => exact nofun
  | infinity s | finite s m e hm =>
    rintro rfl
    rfl

theorem not_mul_lt_zero (hx : ¬ x < 0.0) (hy : ¬ y < 0.0) : ¬ x * y < 0.0 := by
  rw [lt_zero_iff] at hx hy ⊢
  exact fun h => not_isNegative_mul hx hy (isNegative_of_pack h)

theorem not_add_lt_zero (hx : ¬ x < 0.0) (hy : ¬ y < 0.0) : ¬ x + y < 0.0 := by
  rw [lt_zero_iff] at hx hy ⊢
  exact fun h => not_isNegative_add hx hy (isNegative_of_pack h)

theorem not_toFloat_lt_zero (n : UInt64) : ¬ n.toFloat < 0.0 := by
  rw [lt_zero_iff]
  exact fun h => not_isNegative_normalize (Int.natCast_nonneg _) _ _ (isNegative_of_pack h)

theorem not_div_lt_zero (hx : ¬ x < 0.0) : ¬ x / 1e9 < 0.0 := by
  have hdivisor : (1e9 : Float).toModel.unpack =
      .finite .positive 8388608000000000 (-23) (by decide) := by rfl
  rw [lt_zero_iff] at hx ⊢
  intro h
  have hdiv := isNegative_of_pack h
  rw [hdivisor] at hdiv
  exact not_isNegative_div hx _ hdiv

end Doubles

end Signs

/-! ### Backoff -/

open Signs

theorem Duration.not_toSeconds_lt_zero (d : Duration) : ¬ d.toSeconds < 0.0 :=
  not_add_lt_zero (not_toFloat_lt_zero _) (not_div_lt_zero (not_toFloat_lt_zero _))

/-- Every number that is not negative is a span of time in seconds, to the nearest nanosecond. -/
theorem Duration.exists_ofSecondsFloat? {x : Float} (hx : ¬ x < 0.0) :
    ∃ d, Duration.ofSecondsFloat? x = some d := by
  unfold Duration.ofSecondsFloat?
  split
  · exact ⟨_, rfl⟩
  · rw [if_neg hx]
    exact ⟨_, rfl⟩

namespace Backoff

theorem not_powerFrom_lt_zero {r a : Float} (n : Nat) (hr : ¬ r < 0.0) (ha : ¬ a < 0.0) :
    ¬ powerFrom r a n < 0.0 := by
  induction n using Nat.strongRecOn generalizing r a with
  | ind n ih =>
    have hr' : ¬ (if n % 2 = 1 then r * a else r) < 0.0 := by
      split
      · exact not_mul_lt_zero hr ha
      · exact hr
    unfold powerFrom
    simp only
    split
    · exact hr'
    · rename_i h
      exact ih (n / 2) (by omega) hr' (not_mul_lt_zero ha ha)

variable {b : Backoff}

/-- **There is a delay before every retry**, if the multiplier is not negative. -/
theorem delay_ok (h : ¬ b.multiplier < 0.0) (n : Nat) : ∃ d, b.delay n = .ok d := by
  have hone : ¬ (1.0 : Float) < 0.0 := by decide
  have hproduct := not_mul_lt_zero b.base.not_toSeconds_lt_zero
    (not_powerFrom_lt_zero (min (n - 1) greatestInt32.toNat) hone h)
  obtain ⟨d, hd⟩ := Duration.exists_ofSecondsFloat? hproduct
  unfold delay
  simp only
  split
  · exact ⟨_, rfl⟩
  · unfold power
    rw [hd]
    exact ⟨d, rfl⟩

/-- **Every retry has a time.** -/
theorem time_ok (h : ¬ b.multiplier < 0.0) (now : Instant) (n : Nat) :
    ∃ t, b.time now n = .ok t := by
  obtain ⟨d, hd⟩ := delay_ok h n
  exact ⟨now.plusAtMost d, by unfold time; rw [hd]; rfl⟩

end Backoff

/-- **A rule for which a configuration asks has a time for every retry**, since its multiplier has
been found to be above one. -/
theorem RetryRule.multiplier_of_ofConfig {c : RetryConfig} {schedule? : Option Schedule} {b : Backoff}
    (h : RetryRule.ofConfig c schedule? = .ok (.backoff b)) : ¬ b.multiplier < 0.0 := by
  intro hnegative
  unfold RetryRule.ofConfig at h
  split at h
  · obtain ⟨⟨⟩, hvalid, hb⟩ : ∃ u, c.validate = .ok u ∧ b = .ofConfig c := by
      cases hvalid : c.validate with
      | error e =>
        rw [hvalid] at h
        cases h
      | ok u =>
        rw [hvalid] at h
        cases h
        exact ⟨u, rfl, rfl⟩
    subst hb
    have hle : c.multiplier ≤ 1.0 := le_one_of_lt_zero hnegative
    have hrefused : (c.multiplier.isFinite && !decide (c.multiplier ≤ 1.0)) = false := by
      simp [hle]
    unfold RetryConfig.validate at hvalid
    rw [hrefused] at hvalid
    cases hzero : (!c.baseDelay.isZero)
    · rw [hzero] at hvalid
      cases hvalid
    · rw [hzero] at hvalid
      cases hvalid
  · split at h
    · cases h
    · cases h

end EventRelay
