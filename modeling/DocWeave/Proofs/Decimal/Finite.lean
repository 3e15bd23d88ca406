/-
Which literals are finite doubles.  A literal becomes a double by one product or quotient that
is rounded once, or in a short way by a power of ten out of a table; a literal beyond every
double and one far below the least are told by their number of digits.  Each way gives a
finite double exactly for the literals that do not round to infinity.
-/
import DocWeave.Proofs.Decimal.Rounding

namespace DocWeave.Decimal

open Float.Model Float.Model.UnpackedFloat

/-! ### Packing -/

theorem exponentBias_binary64 : Format.binary64.exponentBias = 1023 := rfl

/-- All bits of the exponent are set in infinities only, and where there is no number. -/
theorem unpackExponent_ne_iff (bits : BitVec Format.binary64.numBits) :
    unpackExponent bits ≠ -1#_ ↔ (unpackExponent bits).toNat ≤ 2046 := by
  have hones : (-1#11 : BitVec 11).toNat = 2047 := rfl
  have hlt : (unpackExponent bits).toNat < 2048 := (unpackExponent bits).isLt
  rw [Ne, ← BitVec.toNat_inj, hones]
  omega

/-- Exponents beyond those of a double are packed as infinity, and numbers of fewer than
fifty-three bits below the least normal one. -/
theorem pack_finite (sign : Sign) (m : ℕ) (e : ℤ) (hm : 0 < m) :
    UnpackedFloat.pack .binary64 (.finite sign m e hm) =
      if 971 < e then packedInfinity .binary64 sign
      else if m.log2 + 1 = 53 then
        packComponents .binary64 sign (BitVec.ofNat _ (e + 1075).toNat) (BitVec.ofNat _ m)
      else packComponents .binary64 sign 0#_ (BitVec.ofNat _ m) := by
  have hbiased : e + Format.binary64.exponentBias +
      Format.binary64.mantissaBitsWithoutImplicit = e + 1075 := by
    rw [exponentBias_binary64, add_assoc]
    rfl
  have hover : 2 ^ Format.binary64.exponentBits ≤ (e + 1075).toNat + 1 ↔ 971 < e := by
    change 2048 ≤ _ ↔ _
    omega
  rw [UnpackedFloat.pack]
  simp only [hbiased]
  exact if_congr hover rfl rfl

/-- A bound for the exponent is one for the biased exponent of the double. -/
theorem unpackExponent_pack_le {bound : ℤ} {f : UnpackedFloat} (h : Fits bound f)
    (hleast : -1074 ≤ bound) (hgreatest : bound ≤ 971) :
    ((unpackExponent (UnpackedFloat.pack .binary64 f)).toNat : ℤ) ≤ bound + 1075 := by
  cases f with
  | infinity sign => exact absurd h id
  | notANumber => exact absurd h id
  | zero sign =>
      rw [UnpackedFloat.pack, packedZero, unpackExponent_packComponents]
      change (0 : ℤ) ≤ bound + 1075
      omega
  | finite sign m e hm =>
      have he : e ≤ bound := h
      rw [pack_finite, if_neg (by omega)]
      split
      · have hmod := Nat.mod_le (e + 1075).toNat (2 ^ Format.binary64.exponentBits)
        rw [unpackExponent_packComponents, BitVec.toNat_ofNat]
        omega
      · rw [unpackExponent_packComponents, BitVec.toNat_ofNat, Nat.zero_mod]
        omega

theorem isFinite_unpack_iff (bits : BitVec Format.binary64.numBits) :
    (UnpackedFloat.unpack .binary64 bits).isFinite ↔ unpackExponent bits ≠ -1#_ := by
  rw [UnpackedFloat.unpack]
  simp only
  split_ifs <;> simp_all [UnpackedFloat.isFinite]

/-- A number is packed as a finite double exactly if its exponent is one of a double. -/
theorem isFinite_pack_iff (f : UnpackedFloat) :
    (Float.Model.pack f).isFinite ↔ Fits 971 f := by
  have hbits : (Float.Model.pack f).isFinite ↔
      unpackExponent (UnpackedFloat.pack .binary64 f) ≠ -1#_ :=
    isFinite_unpack_iff _
  rw [hbits]
  constructor
  · intro hfinite
    cases f with
    | zero sign => trivial
    | infinity sign => exact absurd unpackExponent_packComponents hfinite
    | notANumber => exact absurd unpackExponent_packComponents hfinite
    | finite sign m e hm =>
        by_contra hover
        rw [pack_finite, if_pos (not_le.1 hover)] at hfinite
        exact hfinite unpackExponent_packComponents
  · intro hfits
    have hle := unpackExponent_pack_le hfits (by decide) le_rfl
    exact (unpackExponent_ne_iff _).2 (by omega)

/-- A number with as many digits as a double has, and whose exponent does not pass a bound. -/
def Within (bound : ℤ) : UnpackedFloat → Prop
  | .zero _ => True
  | .finite _ m exponent _ => m < 2 ^ 53 ∧ exponent ≤ bound
  | _ => False

theorem Within.fits {bound : ℤ} {f : UnpackedFloat} (h : Within bound f) : Fits bound f := by
  cases f with
  | finite => exact h.2
  | _ => exact h

theorem within_unpack {bound : ℤ} {bits : BitVec Format.binary64.numBits}
    (hle : (unpackExponent bits).toNat ≤ bound + 1075) (hleast : -1074 ≤ bound)
    (hgreatest : bound ≤ 971) : Within bound (UnpackedFloat.unpack .binary64 bits) := by
  have hfinite := (unpackExponent_ne_iff bits).2 (by omega)
  rw [UnpackedFloat.unpack]
  simp only [exponentBias_binary64]
  rw [if_neg hfinite]
  split_ifs with hzero hmantissa
  · trivial
  · refine ⟨(unpackMantissa bits).isLt.trans (by decide), ?_⟩
    rw [hzero]
    exact hleast
  · exact ⟨BitVec.isLt _, by omega⟩

/-- Packing keeps a bound for the exponent. -/
theorem within_unpack_pack {bound : ℤ} {f : UnpackedFloat} (h : Fits bound f)
    (hleast : -1074 ≤ bound) (hgreatest : bound ≤ 971) :
    Within bound (Float.Model.pack f).unpack :=
  within_unpack (unpackExponent_pack_le h hleast hgreatest) hleast hgreatest

theorem isFinite_iff_fits (x : Float) : x.isFinite ↔ Fits 971 x.toModel.unpack := by
  constructor
  · intro hfinite
    have hbits := (unpackExponent_ne_iff _).1 ((isFinite_unpack_iff _).1 hfinite)
    exact (within_unpack (by omega) (by decide) le_rfl).fits
  · intro hfits
    change x.toModel.unpack.isFinite
    cases hx : x.toModel.unpack with
    | zero => rfl
    | finite => rfl
    | _ =>
        rw [hx] at hfits
        exact absurd hfits id

/-- The sign is of no account. -/
theorem isFinite_neg (x : Float) : (-x).isFinite = x.isFinite := by
  have hneg : (-x).isFinite ↔ Fits 971 x.toModel.unpack.neg := isFinite_pack_iff _
  have hsign : Fits 971 x.toModel.unpack.neg ↔ Fits 971 x.toModel.unpack := by
    cases x.toModel.unpack <;> rfl
  rw [Bool.eq_iff_iff, hneg, hsign, isFinite_iff_fits]

/-! ### Products and quotients -/

/-- Zeros behind a mantissa are made up for by the exponent. -/
theorem shiftLeft_mul_two_zpow (m shift : ℕ) (e : ℤ) :
    ((m <<< shift : ℕ) : ℚ) * (2 : ℚ) ^ (e - shift) = m * (2 : ℚ) ^ e := by
  rw [Nat.shiftLeft_eq, zpow_sub₀ two_ne_zero, zpow_natCast]
  push_cast
  rw [mul_assoc, mul_div_cancel₀ _ (by positivity)]

theorem product_mul_two_zpow (m₁ m₂ : ℕ) (e₁ e₂ : ℤ) :
    ((m₁ * m₂ : ℕ) : ℚ) * (2 : ℚ) ^ (e₁ + e₂) = m₁ * (2 : ℚ) ^ e₁ * (m₂ * (2 : ℚ) ^ e₂) := by
  rw [zpow_add₀ two_ne_zero]
  push_cast
  ring

/-- A product has the digits that were put behind one of its factors. -/
theorem precise_product {m n : ℕ} (hm : 0 < m) (hn : 0 < n) : 52 ≤ (m <<< 53 * n).log2 := by
  have hpow : 2 ^ 53 ≤ m <<< 53 * n := by
    rw [Nat.shiftLeft_eq]
    exact le_mul_of_le_of_one_le (Nat.le_mul_of_pos_left _ hm) hn
  exact (Nat.le_log2 (by omega)).2 (by omega)

section Quotient

variable {m₁ m₂ : ℕ} (e₁ e₂ : ℤ)

/-- The exponent of a quotient before it is rounded, low enough for fifty-three bits. -/
def quotientExponent (m₁ : ℕ) (e₁ : ℤ) (m₂ : ℕ) (e₂ : ℤ) : ℤ :=
  min (e₁ - e₂) (max (m₁.log2 + e₁ - (m₂.log2 + e₂) - 53) (-1074))

/-- The dividend, with as many zeros behind it as the exponent of the quotient asks for. -/
def dividend (m₁ : ℕ) (e₁ : ℤ) (m₂ : ℕ) (e₂ : ℤ) : ℕ :=
  m₁ <<< (e₁ - e₂ - quotientExponent m₁ e₁ m₂ e₂).toNat

theorem divCore_binary64 (m₁ m₂ : ℕ) :
    divCore .binary64 m₁ e₁ m₂ e₂ =
      (dividend m₁ e₁ m₂ e₂ / m₂, quotientExponent m₁ e₁ m₂ e₂,
        accuracyOfFraction (dividend m₁ e₁ m₂ e₂ % m₂) m₂) := by
  have hexponent : min (e₁ - e₂)
      (Format.binary64.targetExponent (totalExponent m₁ e₁ - totalExponent m₂ e₂)) =
      quotientExponent m₁ e₁ m₂ e₂ := by
    change min (e₁ - e₂) (max (m₁.log2 + 1 + e₁ - (m₂.log2 + 1 + e₂) - 53) (-1074)) = _
    rw [quotientExponent]
    congr 2
    ring
  simp only [divCore, hexponent]
  rfl

theorem dividend_mul_two_zpow (m₁ m₂ : ℕ) :
    (dividend m₁ e₁ m₂ e₂ / m₂ : ℚ) * (2 : ℚ) ^ quotientExponent m₁ e₁ m₂ e₂ =
      m₁ / m₂ * (2 : ℚ) ^ (e₁ - e₂) := by
  have hexponent : quotientExponent m₁ e₁ m₂ e₂ =
      e₁ - e₂ - (e₁ - e₂ - quotientExponent m₁ e₁ m₂ e₂).toNat := by
    rw [quotientExponent]
    omega
  have hshift := shiftLeft_mul_two_zpow m₁ (e₁ - e₂ - quotientExponent m₁ e₁ m₂ e₂).toNat (e₁ - e₂)
  rw [← hexponent] at hshift
  rw [div_mul_eq_mul_div, dividend, hshift, div_mul_eq_mul_div]

/-- A quotient has fifty-three bits, or all of them down to the least exponent. -/
theorem precise_quotient (h₁ : 0 < m₁) (h₂ : 0 < m₂) :
    52 ≤ (dividend m₁ e₁ m₂ e₂ / m₂).log2 ∨ quotientExponent m₁ e₁ m₂ e₂ ≤ -1074 := by
  rw [or_iff_not_imp_right, not_le]
  intro hleast
  have hshift : m₂.log2 + 53 ≤
      m₁.log2 + (e₁ - e₂ - quotientExponent m₁ e₁ m₂ e₂).toNat := by
    rw [quotientExponent] at hleast ⊢
    omega
  have hdividend : 2 ^ (m₂.log2 + 53) ≤ dividend m₁ e₁ m₂ e₂ := by
    rw [dividend, Nat.shiftLeft_eq]
    calc
      2 ^ (m₂.log2 + 53) ≤ 2 ^ (m₁.log2 + _) := Nat.pow_le_pow_right two_pos hshift
      _ = 2 ^ m₁.log2 * 2 ^ _ := pow_add _ _ _
      _ ≤ m₁ * 2 ^ _ := Nat.mul_le_mul_right _ (Nat.log2_self_le h₁.ne')
  have hquotient : 2 ^ 52 ≤ dividend m₁ e₁ m₂ e₂ / m₂ := by
    rw [Nat.le_div_iff_mul_le h₂]
    calc
      2 ^ 52 * m₂ ≤ 2 ^ 52 * 2 ^ (m₂.log2 + 1) := Nat.mul_le_mul_left _ Nat.lt_log2_self.le
      _ = 2 ^ (m₂.log2 + 53) := by ring
      _ ≤ dividend m₁ e₁ m₂ e₂ := hdividend
  exact (Nat.le_log2 (by omega)).2 hquotient

/-- A quotient is a finite double exactly if it does not round to infinity. -/
theorem fits_div_iff (s₁ s₂ : Sign) (h₁ : 0 < m₁) (h₂ : 0 < m₂) :
    Fits 971 (UnpackedFloat.div .binary64 (.finite s₁ m₁ e₁ h₁) (.finite s₂ m₂ e₂ h₂)) ↔
      (m₁ / m₂ : ℚ) * (2 : ℚ) ^ (e₁ - e₂) < infinityBound := by
  rw [UnpackedFloat.div, divCore_binary64, ← dividend_mul_two_zpow]
  exact (represents_quotient _ h₂).fits_iff_lt_infinityBound (precise_quotient e₁ e₂ h₁ h₂) _

end Quotient

/-! ### Literals -/

theorem one_le_infinityBound : 1 ≤ infinityBound := by
  simpa using two_zpow_le_infinityBound (k := 0) (by decide)

theorem infinityBound_lt_ten_zpow {k : ℤ} (hk : 400 ≤ k) : infinityBound < (10 : ℚ) ^ k := by
  have hpow : (2 : ℚ) ^ (1024 : ℤ) ≤ (10 : ℚ) ^ (400 : ℤ) := by
    have hnat : 2 ^ 1024 ≤ 10 ^ 400 := by decide +kernel
    exact_mod_cast hnat
  rw [infinityBound_eq]
  calc
    (2 : ℚ) ^ (1024 : ℤ) - (2 : ℚ) ^ (970 : ℤ) < (2 : ℚ) ^ (1024 : ℤ) :=
      sub_lt_self _ (by positivity)
    _ ≤ (10 : ℚ) ^ (400 : ℤ) := hpow
    _ ≤ (10 : ℚ) ^ k := zpow_le_zpow_right₀ (by norm_num) hk

theorem infinityBound_lt_mul_ten_zpow {m : ℕ} (hm : m ≠ 0) {k : ℤ} (hk : 400 ≤ k) :
    infinityBound < m * (10 : ℚ) ^ k := by
  have hone : (1 : ℚ) ≤ m := by exact_mod_cast Nat.one_le_iff_ne_zero.2 hm
  exact (infinityBound_lt_ten_zpow hk).trans_le (le_mul_of_one_le_left (by positivity) hone)

theorem mul_ten_zpow_lt_infinityBound {m digits : ℕ} (hm : m < 10 ^ digits) {k : ℤ}
    (hk : digits + k ≤ 0) : m * (10 : ℚ) ^ k < infinityBound := by
  have hlt : (m : ℚ) < (10 : ℚ) ^ (digits : ℤ) := by exact_mod_cast hm
  calc
    m * (10 : ℚ) ^ k < (10 : ℚ) ^ (digits : ℤ) * (10 : ℚ) ^ k :=
      mul_lt_mul_of_pos_right hlt (by positivity)
    _ = (10 : ℚ) ^ (digits + k) := (zpow_add₀ (by norm_num) _ _).symm
    _ ≤ 1 := zpow_le_one_of_nonpos₀ (by norm_num) hk
    _ ≤ infinityBound := one_le_infinityBound

/-- A decimal literal is a finite double exactly if it does not round to infinity. -/
theorem fits_ofScientific_iff (m : ℕ) (e : ℤ) :
    Fits 971 (UnpackedFloat.ofScientific .binary64 m e) ↔
      (m : ℚ) * (10 : ℚ) ^ e < infinityBound := by
  rw [UnpackedFloat.ofScientific]
  split_ifs with hzero hlarge hsmall hsign
  · rw [hzero, Nat.cast_zero, zero_mul]
    exact iff_of_true trivial (one_pos.trans_le one_le_infinityBound)
  · have he : 2048 < e := hlarge
    exact iff_of_false id (infinityBound_lt_mul_ten_zpow hzero (by omega)).not_gt
  · have he : e < -(2048 + m.log2) := hsmall
    have hm : m < 10 ^ (m.log2 + 1) :=
      Nat.lt_log2_self.trans_le (Nat.pow_le_pow_left (by decide) _)
    exact iff_of_true trivial (mul_ten_zpow_lt_infinityBound hm (by push_cast; omega))
  · obtain ⟨k, rfl⟩ := Int.eq_ofNat_of_zero_le hsign
    have hprecise : 52 ≤ (m <<< 53 * 10 ^ k).log2 :=
      precise_product (Nat.pos_of_ne_zero hzero) (Nat.pow_pos (by decide))
    have hvalue : ((m <<< 53 : ℕ) : ℚ) * (2 : ℚ) ^ (-53 : ℤ) = m := by
      have hshift := shiftLeft_mul_two_zpow m 53 0
      rwa [zero_sub, Nat.cast_ofNat, zpow_zero, mul_one] at hshift
    rw [UnpackedFloat.mul, Int.toNat_natCast]
    change Fits 971 (roundWithAccuracy .binary64 _ (m <<< 53 * 10 ^ k) (-53 + 0) .exact) ↔ _
    rw [(represents_exact _).fits_iff_lt_infinityBound (Or.inl hprecise),
      product_mul_two_zpow, hvalue, zpow_zero, mul_one, zpow_natCast]
    push_cast
    rfl
  · rw [fits_div_iff]
    obtain ⟨k, rfl⟩ := Int.exists_eq_neg_ofNat (not_le.1 hsign).le
    rw [neg_neg, Int.toNat_natCast, zpow_neg, zpow_natCast, div_eq_mul_inv, sub_zero, zpow_zero,
      mul_one]
    push_cast
    rfl

/-! ### The short way -/

/-- A number that was rounded fits if it is well below the bound. -/
theorem fits_round {m : ℕ} {e bound : ℤ} (he : e ≤ bound) (hleast : -1074 ≤ bound)
    (hlt : m * (2 : ℚ) ^ e < (2 : ℚ) ^ (bound + 52)) (sign : Sign) :
    Fits bound (UnpackedFloat.round .binary64 sign m e) := by
  rw [UnpackedFloat.round]
  generalize Format.binary64.targetExponent (totalExponent m e) = target
  simp only [decreaseExponent]
  refine (represents_exact _).fits_of_lt (by omega) hleast ?_ sign
  rwa [shiftLeft_mul_two_zpow]

/-- Words are doubles with a small exponent. -/
theorem within_toFloat (n : UInt64) : Within 12 n.toFloat.toModel.unpack := by
  apply within_unpack_pack _ (by decide) (by decide)
  have hlt : (n.toNat : ℚ) < (2 : ℚ) ^ (12 + 52 : ℤ) := by
    exact_mod_cast n.toNat_lt
  change Fits 12 (normalize .binary64 (n.toNat : ℤ) 0 .positive)
  unfold UnpackedFloat.normalize
  split
  next hneg => exact absurd (compare_lt_iff_lt.1 hneg) (Int.natCast_nonneg _).not_gt
  · trivial
  · apply fits_round (by decide) (by decide)
    rwa [zpow_zero, mul_one]

/-- A number with as many digits as a double has, and whose exponent is small. -/
def IsModerate : UnpackedFloat → Prop
  | .finite _ m exponent _ => m < 2 ^ 53 ∧ -100 ≤ exponent ∧ exponent ≤ 100
  | _ => False

instance : DecidablePred IsModerate
  | .finite _ _ _ _ => inferInstanceAs (Decidable (_ ∧ _))
  | .zero _ | .infinity _ | .notANumber => inferInstanceAs (Decidable False)

theorem isModerate_powerOfTen :
    ∀ k : Fin 23, IsModerate Float.exactlyRepresentablePowersOfTen[k].toModel.unpack := by
  decide +kernel

theorem mul_two_zpow_lt {m : ℕ} (hm : m < 2 ^ 53) {e bound : ℤ} (he : e ≤ bound) :
    (m : ℚ) * (2 : ℚ) ^ e < (2 : ℚ) ^ (53 + bound) := by
  have hlt : (m : ℚ) < (2 : ℚ) ^ (53 : ℤ) := by exact_mod_cast hm
  rw [zpow_add₀ two_ne_zero]
  exact mul_lt_mul hlt (zpow_le_zpow_right₀ one_le_two he) (by positivity) (by positivity)

variable {f g : UnpackedFloat}

theorem fits_mul (hf : Within 12 f) (hg : IsModerate g) :
    Fits 971 (UnpackedFloat.mul .binary64 f g) := by
  cases g with
  | finite s₂ m₂ e₂ h₂ =>
      obtain ⟨hm₂, -, he₂⟩ := hg
      cases f with
      | zero s₁ => trivial
      | finite s₁ m₁ e₁ h₁ =>
          obtain ⟨hm₁, he₁⟩ := hf
          apply (represents_exact _).fits_of_lt (by omega) (by decide)
          rw [product_mul_two_zpow]
          calc
            m₁ * (2 : ℚ) ^ e₁ * (m₂ * (2 : ℚ) ^ e₂) <
                (2 : ℚ) ^ (53 + 12 : ℤ) * (2 : ℚ) ^ (53 + 100 : ℤ) :=
              mul_lt_mul'' (mul_two_zpow_lt hm₁ he₁) (mul_two_zpow_lt hm₂ he₂)
                (by positivity) (by positivity)
            _ = (2 : ℚ) ^ (53 + 12 + (53 + 100) : ℤ) := (zpow_add₀ two_ne_zero _ _).symm
            _ ≤ (2 : ℚ) ^ (971 + 52 : ℤ) := zpow_le_zpow_right₀ one_le_two (by decide)
      | _ => exact absurd hf id
  | _ => exact absurd hg id

theorem fits_div (hf : Within 12 f) (hg : IsModerate g) :
    Fits 971 (UnpackedFloat.div .binary64 f g) := by
  cases g with
  | finite s₂ m₂ e₂ h₂ =>
      obtain ⟨hm₂, he₂, -⟩ := hg
      cases f with
      | zero s₁ => trivial
      | finite s₁ m₁ e₁ h₁ =>
          obtain ⟨hm₁, he₁⟩ := hf
          have hone : (1 : ℚ) ≤ m₂ := by exact_mod_cast h₂
          rw [fits_div_iff]
          calc
            m₁ / m₂ * (2 : ℚ) ^ (e₁ - e₂) ≤ m₁ * (2 : ℚ) ^ (e₁ - e₂) :=
              mul_le_mul_of_nonneg_right (div_le_self (by positivity) hone) (by positivity)
            _ < (2 : ℚ) ^ (53 + 112 : ℤ) := mul_two_zpow_lt hm₁ (by omega)
            _ ≤ infinityBound := two_zpow_le_infinityBound (by decide)
      | _ => exact absurd hf id
  | _ => exact absurd hg id

theorem mul_ten_zpow_lt_infinityBound_of_short {m : ℕ} (hm : m < 2 ^ 53) {k : ℤ}
    (hk : k ≤ 22) : m * (10 : ℚ) ^ k < infinityBound := by
  have hpow : (10 : ℚ) ^ k ≤ (2 : ℚ) ^ (88 : ℤ) :=
    (zpow_le_zpow_right₀ (by norm_num) hk).trans (by norm_num)
  calc
    m * (10 : ℚ) ^ k ≤ m * (2 : ℚ) ^ (88 : ℤ) :=
      mul_le_mul_of_nonneg_left hpow (Nat.cast_nonneg m)
    _ < (2 : ℚ) ^ (53 + 88 : ℤ) := mul_two_zpow_lt hm le_rfl
    _ ≤ infinityBound := two_zpow_le_infinityBound (by decide)

/-- A decimal number is a finite double exactly if it does not round to infinity. -/
theorem isFinite_ofScientific_iff (m : ℕ) (down : Bool) (e : ℕ) :
    (Float.ofScientific m down e).isFinite ↔
      (m : ℚ) * (10 : ℚ) ^ (if down then -(e : ℤ) else e) < infinityBound := by
  rw [Float.ofScientific]
  split
  next hshort =>
    have hpower := isModerate_powerOfTen ⟨e, by omega⟩
    have hword := within_toFloat m.toUInt64
    refine iff_of_true ?_ (mul_ten_zpow_lt_infinityBound_of_short hshort.1 ?_)
    · cases down with
      | true => exact (isFinite_pack_iff _).2 (fits_div hword hpower)
      | false => exact (isFinite_pack_iff _).2 (fits_mul hword hpower)
    · split <;> omega
  next hlong =>
    have hexponent : (if down then Int.negOfNat e else Int.ofNat e) =
        if down then -(e : ℤ) else e := by
      rw [Int.negOfNat_eq]
      rfl
    simp only [hexponent]
    exact (isFinite_pack_iff _).trans (fits_ofScientific_iff m _)

def Literal.magnitude (l : Literal) : ℚ :=
  l.significand * (10 : ℚ) ^ l.exponent

theorem lt_ten_pow_length_toDigits (m : ℕ) : m < 10 ^ (Nat.toDigits 10 m).length :=
  (Nat.length_toDigits_le_iff (by decide) Nat.length_toDigits_pos).1 le_rfl

theorem ten_pow_length_toDigits_le {m : ℕ} (hm : m ≠ 0) :
    10 ^ ((Nat.toDigits 10 m).length - 1) ≤ m := by
  rcases Nat.eq_zero_or_pos ((Nat.toDigits 10 m).length - 1) with hone | hmore
  · rw [hone, pow_zero]
    omega
  · by_contra hlt
    have hle := (Nat.length_toDigits_le_iff (by decide) hmore).2 (not_le.1 hlt)
    omega

/-- A literal is a finite double exactly if it does not round to infinity. -/
theorem isFinite_toFloat_iff (l : Literal) :
    l.toFloat.isFinite ↔ l.magnitude < infinityBound := by
  have hsign : ∀ x : Float, (if l.negative then -x else x).isFinite = x.isFinite := by
    intro x
    split
    · exact isFinite_neg x
    · rfl
  rw [Literal.toFloat, Literal.magnitude]
  simp only [hsign]
  split_ifs with hsmall hlarge
  · refine iff_of_true (by decide) ?_
    simp only [Bool.or_eq_true, decide_eq_true_eq] at hsmall
    rcases hsmall with hzero | hsize
    · rw [hzero, Nat.cast_zero, zero_mul]
      exact one_pos.trans_le one_le_infinityBound
    · exact mul_ten_zpow_lt_infinityBound (lt_ten_pow_length_toDigits _) (by omega)
  · simp only [Bool.or_eq_true, decide_eq_true_eq, not_or] at hsmall
    refine iff_of_false (by decide) (le_of_lt ?_).not_gt
    have hle : (10 : ℚ) ^ (((Nat.toDigits 10 l.significand).length - 1 : ℕ) : ℤ) ≤
        l.significand := by
      exact_mod_cast ten_pow_length_toDigits_le hsmall.1
    have hlength := @Nat.length_toDigits_pos 10 l.significand
    calc
      infinityBound < (10 : ℚ) ^ (((Nat.toDigits 10 l.significand).length - 1 : ℕ) +
          l.exponent) := infinityBound_lt_ten_zpow (by omega)
      _ = (10 : ℚ) ^ (((Nat.toDigits 10 l.significand).length - 1 : ℕ) : ℤ) *
          (10 : ℚ) ^ l.exponent := zpow_add₀ (by norm_num) _ _
      _ ≤ l.significand * (10 : ℚ) ^ l.exponent :=
        mul_le_mul_of_nonneg_right hle (by positivity)
  · have hexponent : (if decide (l.exponent < 0) then -(l.exponent.natAbs : ℤ)
        else l.exponent.natAbs) = l.exponent := by
      simp only [decide_eq_true_eq]
      split <;> omega
    rw [isFinite_ofScientific_iff, hexponent]

end DocWeave.Decimal
