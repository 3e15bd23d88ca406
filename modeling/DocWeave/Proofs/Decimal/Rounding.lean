/-
Rounding to the nearest double.  A number is brought to the exponent of a double by dropping
bits, and two bits remember where it lies between one mantissa and the next.  A number whose
exponent has become too large stands for infinity, and this happens exactly from half a step
above the greatest double on.
-/
import Mathlib
import DocWeave.Decimal.Literal

namespace DocWeave.Decimal

open Float.Model Float.Model.UnpackedFloat

/-! ### Mantissas with residual bits -/

/-- A mantissa with residual bits stands for a number: the round bit for half a step, and the
sticky bit for a rest of less than that. -/
def Represents (em : ExtendedMantissa) (x : ℚ) : Prop :=
  ∃ rest : ℚ, 0 ≤ rest ∧ rest < 1 / 2 ∧ (em.stickyBit = true ↔ 0 < rest) ∧
    x = em.mantissa + (if em.roundBit then 1 / 2 else 0) + rest

variable {em : ExtendedMantissa} {x : ℚ}

theorem Represents.shiftRightOne (h : Represents em x) :
    Represents em.shiftRightOne (x / 2) := by
  obtain ⟨rest, hnonneg, hlt, hsticky, rfl⟩ := h
  have hsplit : (em.mantissa : ℚ) = 2 * (em.mantissa / 2 : ℕ) + (em.mantissa % 2 : ℕ) := by
    exact_mod_cast (Nat.div_add_mod em.mantissa 2).symm
  refine ⟨(if em.roundBit then 1 / 4 else 0) + rest / 2, ?_, ?_, ?_, ?_⟩
  · positivity
  · split <;> linarith
  · rw [ExtendedMantissa.shiftRightOne, Bool.or_eq_true, hsticky]
    cases em.roundBit with
    | true => simp; linarith
    | false => simp
  · rw [ExtendedMantissa.shiftRightOne, hsplit]
    rcases Nat.mod_two_eq_zero_or_one em.mantissa with heven | hodd
    · simp only [heven]
      cases em.roundBit <;> simp <;> ring
    · simp only [hodd]
      cases em.roundBit <;> simp <;> ring

/-- Shifting keeps count of the bits that are dropped. -/
theorem Represents.shiftRight (h : Represents em x) (k : ℕ) :
    Represents (em >>> k) (x / 2 ^ k) := by
  induction k with
  | zero =>
      rw [pow_zero, div_one]
      exact h
  | succ k ih =>
      rw [pow_succ, ← div_div]
      exact ih.shiftRightOne

theorem mantissa_shiftRight (em : ExtendedMantissa) (k : ℕ) :
    (em >>> k).mantissa = em.mantissa / 2 ^ k := by
  induction k with
  | zero => exact (Nat.div_one _).symm
  | succ k ih =>
      change (em >>> k).mantissa / 2 = _
      rw [ih, Nat.div_div_eq_div_mul, pow_succ]

theorem Represents.mantissa_le (h : Represents em x) : (em.mantissa : ℚ) ≤ x := by
  obtain ⟨rest, hnonneg, -, -, rfl⟩ := h
  split <;> linarith

theorem Represents.lt_mantissa_add_one (h : Represents em x) : x < em.mantissa + 1 := by
  obtain ⟨rest, -, hlt, -, rfl⟩ := h
  split <;> linarith

/-- Rounding goes up beyond half a step, and at half a step from an odd number. -/
theorem roundedMantissa_eq (em : ExtendedMantissa) :
    em.roundedMantissa = em.mantissa +
      if em.roundBit ∧ (em.stickyBit ∨ em.mantissa % 2 = 1) then 1 else 0 := by
  obtain ⟨mantissa, round, sticky⟩ := em
  cases round <;> cases sticky <;>
    simp [ExtendedMantissa.roundedMantissa, ExtendedMantissa.accuracy,
      Accuracy.roundToNearestEven]
  split <;> omega

/-- Half way between two whole numbers the even one is taken, so an even number is reached
from half a step below it. -/
theorem Represents.le_roundedMantissa_iff (h : Represents em x) {n : ℕ} (hn : n % 2 = 0) :
    n ≤ em.roundedMantissa ↔ (n : ℚ) - 1 / 2 ≤ x := by
  obtain hle | hnext | hfar : n ≤ em.mantissa ∨ n = em.mantissa + 1 ∨ em.mantissa + 2 ≤ n := by
    omega
  · have hx := h.mantissa_le
    have hcast : (n : ℚ) ≤ em.mantissa := by exact_mod_cast hle
    exact iff_of_true (by rw [roundedMantissa_eq]; omega) (by linarith)
  · -- the number below is odd, so the round bit alone decides
    have hodd : em.mantissa % 2 = 1 := by omega
    obtain ⟨rest, hnonneg, hlt, -, rfl⟩ := h
    rw [roundedMantissa_eq, hnext]
    cases em.roundBit with
    | true =>
        refine iff_of_true (by simp [hodd]) ?_
        push_cast
        simp only [if_true]
        linarith
    | false =>
        refine iff_of_false (by simp) ?_
        push_cast
        linarith
  · have hx := h.lt_mantissa_add_one
    have hcast : (em.mantissa : ℚ) + 2 ≤ n := by exact_mod_cast hfar
    refine iff_of_false ?_ (by linarith)
    rw [roundedMantissa_eq]
    split <;> omega

theorem represents_exact (m : ℕ) : Represents (.ofMantissaAndAccuracy m .exact) m :=
  ⟨0, le_rfl, by norm_num, by simp [ExtendedMantissa.ofMantissaAndAccuracy],
    by simp [ExtendedMantissa.ofMantissaAndAccuracy]⟩

/-- The remainder of a division shows how near the quotient is. -/
theorem represents_quotient (m₁ : ℕ) {m₂ : ℕ} (h : 0 < m₂) :
    Represents (.ofMantissaAndAccuracy (m₁ / m₂) (accuracyOfFraction (m₁ % m₂) m₂))
      (m₁ / m₂ : ℚ) := by
  have hpos : (0 : ℚ) < m₂ := by exact_mod_cast h
  have hlt : (m₁ % m₂ : ℕ) < (m₂ : ℚ) := by exact_mod_cast Nat.mod_lt m₁ h
  have hsplit : (m₁ / m₂ : ℚ) = (m₁ / m₂ : ℕ) + (m₁ % m₂ : ℕ) / m₂ := by
    have hdiv : (m₁ : ℚ) = m₂ * (m₁ / m₂ : ℕ) + (m₁ % m₂ : ℕ) := by
      exact_mod_cast (Nat.div_add_mod m₁ m₂).symm
    rw [hdiv]
    field_simp
  rw [hsplit]
  generalize m₁ / m₂ = quotient, m₁ % m₂ = remainder at hlt ⊢
  rw [accuracyOfFraction]
  split_ifs with hzero
  · rw [hzero, Nat.cast_zero, zero_div, add_zero]
    exact represents_exact quotient
  · have hne : (0 : ℚ) < remainder := by exact_mod_cast Nat.pos_of_ne_zero hzero
    have hfraction : (0 : ℚ) < remainder / m₂ := div_pos hne hpos
    have hone : (remainder : ℚ) / m₂ < 1 := (div_lt_one hpos).2 hlt
    rcases hhalf : compare (2 * remainder) m₂ with _ | _ | _
    · have htwice : 2 * (remainder : ℚ) < m₂ := by exact_mod_cast Nat.compare_eq_lt.1 hhalf
      have hbelow : (remainder : ℚ) / m₂ < 1 / 2 := by
        rw [div_lt_div_iff₀ hpos two_pos]
        linarith
      exact ⟨remainder / m₂, hfraction.le, hbelow, iff_of_true rfl hfraction,
        by simp [ExtendedMantissa.ofMantissaAndAccuracy]⟩
    · have htwice : 2 * (remainder : ℚ) = m₂ := by exact_mod_cast Nat.compare_eq_eq.1 hhalf
      have hequal : (remainder : ℚ) / m₂ = 1 / 2 := by
        rw [div_eq_div_iff hpos.ne' two_ne_zero]
        linarith
      exact ⟨0, le_rfl, by norm_num, by simp [ExtendedMantissa.ofMantissaAndAccuracy],
        by simp [ExtendedMantissa.ofMantissaAndAccuracy, hequal]⟩
    · have htwice : (m₂ : ℚ) < 2 * remainder := by exact_mod_cast Nat.compare_eq_gt.1 hhalf
      have habove : 1 / 2 < (remainder : ℚ) / m₂ := by
        rw [div_lt_div_iff₀ two_pos hpos]
        linarith
      exact ⟨remainder / m₂ - 1 / 2, by linarith, by linarith,
        iff_of_true rfl (sub_pos.2 habove), by simp [ExtendedMantissa.ofMantissaAndAccuracy]⟩

/-! ### The exponent of a rounded number -/

/-- A number that is not infinite and whose exponent does not pass a bound. -/
def Fits (bound : ℤ) : UnpackedFloat → Prop
  | .zero _ => True
  | .finite _ _ exponent _ => exponent ≤ bound
  | _ => False

/-- The exponent that a mantissa is brought to when it is rounded: fifty-three bits are left
of it, or fewer at the least exponent. -/
def roundingExponent (m : ℕ) (e : ℤ) : ℤ :=
  max e (max (m.log2 + e - 52) (-1074))

/-- The mantissa after rounding, which may have become one bit longer. -/
def roundedAt (m : ℕ) (e : ℤ) (acc : Accuracy) : ℕ :=
  (ExtendedMantissa.ofMantissaAndAccuracy m acc >>>
    (roundingExponent m e - e).toNat).roundedMantissa

theorem shiftToTargetExponent_binary64 (m : ℕ) (e : ℤ) (acc : Accuracy) :
    shiftToTargetExponent .binary64 m e acc =
      (ExtendedMantissa.ofMantissaAndAccuracy m acc >>> (roundingExponent m e - e).toNat,
        roundingExponent m e) := by
  have htarget : Format.binary64.targetExponent (totalExponent m e) =
      max (m.log2 + 1 + e - 53) (-1074) := rfl
  have hshift : (Format.binary64.targetExponent (totalExponent m e) - e).toNat =
      (roundingExponent m e - e).toNat := by
    rw [htarget, roundingExponent]
    omega
  have hexponent : e + (roundingExponent m e - e).toNat = roundingExponent m e := by
    rw [roundingExponent]
    omega
  rw [shiftToTargetExponent, shiftToExponent, hshift, hexponent]

/-- No rounded mantissa is lost when it is brought back to fifty-three bits. -/
theorem shifted_eq_zero_iff (r : ℕ) {e : ℤ} (he : -1074 ≤ e) :
    r / 2 ^ (roundingExponent r e - e).toNat = 0 ↔ r = 0 := by
  constructor
  · intro hzero
    by_contra hne
    have hshift : (roundingExponent r e - e).toNat ≤ r.log2 := by
      rw [roundingExponent]
      omega
    have hlog := Nat.log2_self_le hne
    have hpow := Nat.pow_le_pow_right two_pos hshift
    exact absurd hzero (Nat.div_pos (hpow.trans hlog) (by positivity)).ne'
  · rintro rfl
    exact Nat.zero_div _

theorem fits_roundWithAccuracy_iff (bound : ℤ) (sign : Sign) (m : ℕ) (e : ℤ)
    (acc : Accuracy) :
    Fits bound (roundWithAccuracy .binary64 sign m e acc) ↔
      roundedAt m e acc = 0 ∨ roundingExponent m e ≤ bound ∧
        (roundedAt m e acc).log2 + roundingExponent m e - 52 ≤ bound := by
  have hleast : -1074 ≤ roundingExponent m e := by
    rw [roundingExponent]
    omega
  have hzero := shifted_eq_zero_iff (roundedAt m e acc) hleast
  rw [roundWithAccuracy]
  simp only [shiftToTargetExponent_binary64]
  split
  next hlost =>
    rw [mantissa_shiftRight] at hlost
    exact iff_of_true trivial (Or.inl (hzero.1 hlost))
  next hkept =>
    rw [mantissa_shiftRight] at hkept
    rw [or_iff_right (mt hzero.2 hkept)]
    change roundingExponent (roundedAt m e acc) (roundingExponent m e) ≤ bound ↔ _
    unfold roundingExponent
    omega

/-! ### How large a number may be -/

/-- The numbers from half a step above the greatest double on round to infinity. -/
def infinityBound : ℚ :=
  (2 ^ 53 - 1) * 2 ^ 971 + 2 ^ 970

theorem infinityBound_eq : infinityBound = (2 : ℚ) ^ (1024 : ℤ) - (2 : ℚ) ^ (970 : ℤ) := by
  have hupper : (2 : ℚ) ^ (1024 : ℤ) = 2 ^ 54 * 2 ^ 970 := by
    rw [← pow_add]
    exact zpow_natCast 2 1024
  have hlower : (2 : ℚ) ^ (970 : ℤ) = 2 ^ 970 := zpow_natCast 2 970
  rw [infinityBound, hupper, hlower, pow_succ 2 970]
  generalize (2 : ℚ) ^ 970 = half
  ring

section Magnitude

variable {m : ℕ} {e : ℤ} {acc : Accuracy}

theorem mantissa_ofMantissaAndAccuracy (m : ℕ) (acc : Accuracy) :
    (ExtendedMantissa.ofMantissaAndAccuracy m acc).mantissa = m := by
  rcases acc with _ | (_ | _ | _) <;> rfl

/-- The number that is rounded lies below the next power of two. -/
theorem Represents.lt_two_zpow (h : Represents (.ofMantissaAndAccuracy m acc) x) :
    x * (2 : ℚ) ^ e < (2 : ℚ) ^ (m.log2 + 1 + e) := by
  have hlt := h.lt_mantissa_add_one
  rw [mantissa_ofMantissaAndAccuracy] at hlt
  have hlog : (m + 1 : ℚ) ≤ (2 : ℚ) ^ ((m.log2 : ℤ) + 1) := by
    exact_mod_cast Nat.lt_log2_self
  rw [zpow_add₀ two_ne_zero]
  exact mul_lt_mul_of_pos_right (hlt.trans_le hlog) (by positivity)

/-- The number that is rounded reaches the leading bit of its mantissa. -/
theorem Represents.two_zpow_le (h : Represents (.ofMantissaAndAccuracy m acc) x)
    (hm : m ≠ 0) : (2 : ℚ) ^ (m.log2 + e) ≤ x * (2 : ℚ) ^ e := by
  have hle := h.mantissa_le
  rw [mantissa_ofMantissaAndAccuracy] at hle
  have hlog : (2 : ℚ) ^ (m.log2 : ℤ) ≤ m := by
    exact_mod_cast Nat.log2_self_le hm
  rw [zpow_add₀ two_ne_zero]
  exact mul_le_mul_of_nonneg_right (hlog.trans hle) (by positivity)

/-- The rounded mantissa reaches a power of two from half a step below it. -/
theorem Represents.two_pow_le_roundedAt_iff
    (h : Represents (.ofMantissaAndAccuracy m acc) x) {k : ℕ} (hk : 0 < k) :
    2 ^ k ≤ roundedAt m e acc ↔
      (2 : ℚ) ^ (k + roundingExponent m e) - (2 : ℚ) ^ (roundingExponent m e - 1) ≤
        x * (2 : ℚ) ^ e := by
  have heven : 2 ^ k % 2 = 0 := by
    obtain ⟨k, rfl⟩ := Nat.exists_eq_succ_of_ne_zero hk.ne'
    rw [pow_succ, Nat.mul_mod_left]
  have hexponent : roundingExponent m e = e + (roundingExponent m e - e).toNat := by
    rw [roundingExponent]
    omega
  rw [roundedAt, (h.shiftRight _).le_roundedMantissa_iff heven, le_div_iff₀ (by positivity)]
  generalize (roundingExponent m e - e).toNat = shift at hexponent ⊢
  rw [hexponent]
  have hscale : (((2 ^ k : ℕ) : ℚ) - 1 / 2) * 2 ^ shift * 2 ^ e =
      (2 : ℚ) ^ ((k : ℤ) + (e + shift)) - (2 : ℚ) ^ (e + shift - 1) := by
    rw [zpow_sub₀ two_ne_zero, zpow_add₀ two_ne_zero, zpow_add₀ two_ne_zero, zpow_natCast,
      zpow_natCast, zpow_one]
    push_cast
    ring
  rw [← hscale]
  exact (mul_le_mul_iff_left₀ (by positivity)).symm

/-- A rounded number passes the bound for its exponent from half a step below the next power
of two on. -/
theorem Represents.fits_iff (h : Represents (.ofMantissaAndAccuracy m acc) x) (bound : ℤ)
    (sign : Sign) :
    Fits bound (roundWithAccuracy .binary64 sign m e acc) ↔
      roundedAt m e acc = 0 ∨ roundingExponent m e ≤ bound ∧
        x * (2 : ℚ) ^ e < (2 : ℚ) ^ (bound + 53) - (2 : ℚ) ^ (roundingExponent m e - 1) := by
  rw [fits_roundWithAccuracy_iff]
  refine or_congr_right (and_congr_right fun hle => ?_)
  obtain ⟨k, hk⟩ : ∃ k : ℕ, bound + 53 = k + roundingExponent m e :=
    ⟨(bound + 53 - roundingExponent m e).toNat, by omega⟩
  rw [hk, ← not_le (a := (2 : ℚ) ^ _ - _), ← h.two_pow_le_roundedAt_iff (by omega), not_le]
  rcases Nat.eq_zero_or_pos (roundedAt m e acc) with hr | hr
  · rw [hr, Nat.log2_zero]
    exact iff_of_true (by omega) (by positivity)
  · rw [← Nat.log2_lt hr.ne']
    omega

/-- A number well below the bound fits, however few digits of it are given. -/
theorem Represents.fits_of_lt (h : Represents (.ofMantissaAndAccuracy m acc) x) {bound : ℤ}
    (he : e ≤ bound) (hbound : -1074 ≤ bound)
    (hlt : x * (2 : ℚ) ^ e < (2 : ℚ) ^ (bound + 52)) (sign : Sign) :
    Fits bound (roundWithAccuracy .binary64 sign m e acc) := by
  have hlog : m.log2 + e ≤ bound + 52 := by
    rcases m.eq_zero_or_pos with rfl | hm
    · simp only [Nat.log2_zero]
      omega
    · have hpow := (h.two_zpow_le hm.ne').trans_lt hlt
      exact ((zpow_lt_zpow_iff_right₀ one_lt_two).1 hpow).le
  have hle : roundingExponent m e ≤ bound := by
    rw [roundingExponent]
    omega
  have hhalf : (2 : ℚ) ^ (roundingExponent m e - 1) ≤ (2 : ℚ) ^ (bound + 52) :=
    zpow_le_zpow_right₀ one_le_two (by omega)
  have hdouble : (2 : ℚ) ^ (bound + 53) = 2 * (2 : ℚ) ^ (bound + 52) := by
    rw [← zpow_one_add₀ two_ne_zero]
    congr 1
    ring
  rw [h.fits_iff]
  exact Or.inr ⟨hle, by linarith⟩

theorem Represents.lt_two_zpow_roundingExponent
    (h : Represents (.ofMantissaAndAccuracy m acc) x) :
    x * (2 : ℚ) ^ e < (2 : ℚ) ^ (roundingExponent m e + 53) := by
  refine h.lt_two_zpow.trans_le (zpow_le_zpow_right₀ one_le_two ?_)
  rw [roundingExponent]
  omega

/-- If fifty-three bits are given, rounding keeps that many above the least exponent. -/
theorem Represents.two_zpow_roundingExponent_le
    (h : Represents (.ofMantissaAndAccuracy m acc) x)
    (hprecise : 52 ≤ m.log2 ∨ e ≤ -1074) (hleast : -1074 < roundingExponent m e) :
    (2 : ℚ) ^ (roundingExponent m e + 52) ≤ x * (2 : ℚ) ^ e := by
  rw [roundingExponent] at hleast ⊢
  have hm : m ≠ 0 := by
    rintro rfl
    rw [Nat.log2_zero] at hprecise hleast
    omega
  refine le_trans (zpow_le_zpow_right₀ one_le_two ?_) (h.two_zpow_le hm)
  omega

theorem two_zpow_le_infinityBound {k : ℤ} (hk : k ≤ 1023) : (2 : ℚ) ^ k ≤ infinityBound := by
  have hdouble : (2 : ℚ) ^ (1024 : ℤ) = 2 * (2 : ℚ) ^ (1023 : ℤ) :=
    zpow_one_add₀ two_ne_zero 1023
  calc
    (2 : ℚ) ^ k ≤ (2 : ℚ) ^ (1023 : ℤ) := zpow_le_zpow_right₀ one_le_two hk
    _ = (2 : ℚ) ^ (1024 : ℤ) - (2 : ℚ) ^ (1023 : ℤ) := by
      rw [eq_sub_iff_add_eq, ← two_mul, hdouble]
    _ ≤ (2 : ℚ) ^ (1024 : ℤ) - (2 : ℚ) ^ (970 : ℤ) :=
      sub_le_sub_left (zpow_le_zpow_right₀ one_le_two (by omega)) _
    _ = infinityBound := infinityBound_eq.symm

/-- If fifty-three bits are given, or all down to the least exponent, a number fits in the
exponents of a double exactly if it does not round to infinity. -/
theorem Represents.fits_iff_lt_infinityBound (h : Represents (.ofMantissaAndAccuracy m acc) x)
    (hprecise : 52 ≤ m.log2 ∨ e ≤ -1074) (sign : Sign) :
    Fits 971 (roundWithAccuracy .binary64 sign m e acc) ↔
      x * (2 : ℚ) ^ e < infinityBound := by
  have hupper := h.lt_two_zpow_roundingExponent (e := e)
  have hlower := h.two_zpow_roundingExponent_le hprecise
  rw [h.fits_iff]
  constructor
  · rintro (hzero | ⟨hle, hlt⟩)
    · by_cases hleast : -1074 < roundingExponent m e
      · -- the leading one of fifty-three bits cannot be rounded away
        have hpow : ¬ 2 ^ 52 ≤ roundedAt m e acc := by
          rw [hzero]
          decide
        rw [h.two_pow_le_roundedAt_iff (by decide), not_le, add_comm] at hpow
        have hhalf : (0 : ℚ) < 2 ^ (roundingExponent m e - 1) := by positivity
        exact absurd (hlower hleast) (by push_cast at hpow; linarith)
      · exact hupper.trans_le (two_zpow_le_infinityBound (by omega))
    · rcases hle.eq_or_lt with heq | hlt'
      · rw [heq] at hlt
        rw [infinityBound_eq]
        exact hlt
      · exact hupper.trans_le (two_zpow_le_infinityBound (by omega))
  · intro hlt
    have hhalf : (0 : ℚ) < 2 ^ (970 : ℤ) := by positivity
    rw [infinityBound_eq] at hlt
    have hle : roundingExponent m e ≤ 971 := by
      by_contra hover
      have hpow := (hlower (by omega)).trans_lt (hlt.trans (sub_lt_self _ hhalf))
      have hexponent := (zpow_lt_zpow_iff_right₀ one_lt_two).1 hpow
      omega
    have hmono : (2 : ℚ) ^ (roundingExponent m e - 1) ≤ (2 : ℚ) ^ (970 : ℤ) :=
      zpow_le_zpow_right₀ one_le_two (by omega)
    exact Or.inr ⟨hle, hlt.trans_le (sub_le_sub_left hmono _)⟩

end Magnitude

end DocWeave.Decimal
