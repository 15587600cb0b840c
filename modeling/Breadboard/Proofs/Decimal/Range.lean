import Breadboard.Proofs.Decimal.Nearest

/-!
# The range of floats

The range of floats ends in the middle between the greatest float and the next power of two: that
middle is itself rounded up, since the mantissa of the greatest float is odd. A value is rounded to
a finite float exactly if it is below the end of the range. So a quotient of floats is finite
exactly if the exact quotient is below it, and a whole number has a float exactly if it is.
-/

namespace Breadboard

open Float.Model Float.Model.UnpackedFloat

/-! ## Rounding a mantissa up -/

namespace StandsFor

variable {em : ExtendedMantissa} {x : ℚ} {n : ℕ}

theorem roundedMantissa_le (h : StandsFor em x) (hx : x < n + 1 / 2) : em.roundedMantissa ≤ n := by
  have hhalf := (abs_le.mp h.abs_roundedMantissa_sub_le).2
  have hlt : (em.roundedMantissa : ℚ) < (n + 1 : ℕ) := by
    push_cast
    linarith
  exact Nat.le_of_lt_succ (by exact_mod_cast hlt)

/-- From the middle above an odd number on, a mantissa is rounded up. -/
theorem lt_roundedMantissa (h : StandsFor em x) (hodd : n % 2 = 1) (hx : n + 1 / 2 ≤ x) :
    n < em.roundedMantissa := by
  have hlt := h.lt
  obtain ⟨m, r, s⟩ := em
  unfold kept at hlt
  cases r with
  | false =>
    have hrounded : ExtendedMantissa.roundedMantissa ⟨m, false, s⟩ = m := by cases s <;> rfl
    have hm : (n : ℚ) < m := by
      norm_num at hlt
      linarith
    rw [hrounded]
    exact_mod_cast hm
  | true =>
    have hm : (n : ℚ) < (m + 1 : ℕ) := by
      norm_num at hlt ⊢
      linarith
    have hm : n < m + 1 := by exact_mod_cast hm
    cases s with
    | true => exact hm
    | false =>
      show n < m + m % 2
      omega

end StandsFor

/-! ## Rounding at the end of the range -/

/-- A mantissa with an accuracy, rounded to a float. -/
def roundedWith (m : ℕ) (e : ℤ) (a : Accuracy) : ℕ :=
  (ExtendedMantissa.ofMantissaAndAccuracy m a >>> shiftOf m e).roundedMantissa

theorem roundedWith_le (m : ℕ) (e : ℤ) (a : Accuracy) : roundedWith m e a ≤ 2 ^ 53 := by
  have hle := roundedMantissa_le (ExtendedMantissa.ofMantissaAndAccuracy m a >>> shiftOf m e)
  rw [mantissa_shiftRight, mantissa_ofMantissaAndAccuracy] at hle
  have := div_shiftOf_lt m e
  unfold roundedWith
  omega

namespace StandsFor

variable {m : ℕ} {a : Accuracy} {x : ℚ}

theorem mantissa_le (h : StandsFor (.ofMantissaAndAccuracy m a) x) : (m : ℚ) ≤ x := by
  have hle := h.le
  unfold kept at hle
  rw [mantissa_ofMantissaAndAccuracy] at hle
  split at hle <;> linarith

theorem lt_mantissa_add_one (h : StandsFor (.ofMantissaAndAccuracy m a) x) : x < (m : ℚ) + 1 := by
  have hlt := h.lt
  unfold kept at hlt
  rw [mantissa_ofMantissaAndAccuracy] at hlt
  split at hlt <;> linarith

theorem lt_two_zpow_of_shift (h : StandsFor (.ofMantissaAndAccuracy m a) x) (e : ℤ) :
    x * 2 ^ e < 2 ^ (53 + (e + shiftOf m e : ℤ)) := by
  have hdiv := (Nat.div_lt_iff_lt_mul (Nat.two_pow_pos _)).mp (div_shiftOf_lt m e)
  have hle : (m : ℚ) + 1 ≤ 2 ^ 53 * 2 ^ shiftOf m e := by exact_mod_cast hdiv
  calc x * 2 ^ e < 2 ^ 53 * 2 ^ shiftOf m e * 2 ^ e :=
        mul_lt_mul_of_pos_right (h.lt_mantissa_add_one.trans_le hle) (by positivity)
    _ = 2 ^ (53 + (e + shiftOf m e : ℤ)) := by
      rw [zpow_add₀ two_ne_zero, zpow_add₀ two_ne_zero, zpow_natCast, mul_comm (2 ^ e), mul_assoc]
      rfl

theorem two_zpow_le_of_normal (h : StandsFor (.ofMantissaAndAccuracy m a) x) {e : ℤ}
    (he : e ≤ Format.binary64.targetExponent (totalExponent m e))
    (hnormal : -1074 < e + (shiftOf m e : ℤ)) :
    (2 : ℚ) ^ (52 + (e + shiftOf m e : ℤ)) ≤ x * 2 ^ e := by
  have htarget := add_shiftOf_eq he
  have hm : 0 < m := by
    refine Nat.pos_of_ne_zero fun hzero => ?_
    have hlog : m.log2 = 0 := by rw [hzero, Nat.log2_zero]
    have hbelow := he
    rw [targetExponent_eq] at hbelow
    omega
  exact (Breadboard.two_zpow_le_of_normal hm he hnormal).trans
    (mul_le_mul_of_nonneg_right h.mantissa_le (by positivity))

end StandsFor

theorem shiftOf_rounded {r : ℕ} {t : ℤ} (hr : r ≤ 2 ^ 53) (ht : -1074 ≤ t) :
    shiftOf r t = if r = 2 ^ 53 then 1 else 0 := by
  unfold shiftOf
  rw [targetExponent_eq]
  split_ifs with htop
  · have hlog : r.log2 = 53 := by
      rw [htop]
      exact Nat.log2_two_pow
    omega
  · have hlog : r.log2 ≤ 52 := log2_le_of_lt (by omega)
    omega

theorem not_isFinite_packedInfinity (s : Sign) :
    (UnpackedFloat.unpack Format.binary64 (packedInfinity Format.binary64 s)).isFinite = false := by
  cases s <;> rfl

/-- A number is packed as a finite float exactly if its exponent is in range. -/
theorem isFinite_pack_iff {s : Sign} {m : ℕ} {e : ℤ} {hm : 0 < m} :
    (Float.Model.pack (.finite s m e hm)).unpack.isFinite ↔ e ≤ 971 := by
  refine ⟨fun h => ?_, fun h => isFinite_unpack_pack (u := .finite s m e hm) h⟩
  by_contra hgreat
  have hpack : UnpackedFloat.pack Format.binary64 (.finite s m e hm) =
      packedInfinity Format.binary64 s := by
    refine if_pos ?_
    show 2048 ≤ (e + 1023 + 52).toNat + 1
    omega
  have hinfinite : (UnpackedFloat.unpack Format.binary64
      (UnpackedFloat.pack Format.binary64 (.finite s m e hm))).isFinite = false := by
    rw [hpack]
    exact not_isFinite_packedInfinity s
  exact absurd (h.symm.trans hinfinite) (by decide)

/-- What is rounded is finite if nothing is left of its mantissa or its exponent is in range. -/
theorem isFinite_round_iff (m : ℕ) (e : ℤ) (a : Accuracy) (s : Sign) :
    (Float.Model.pack (roundWithAccuracy Format.binary64 s m e a)).unpack.isFinite ↔
      roundedWith m e a / 2 ^ shiftOf (roundedWith m e a) (e + shiftOf m e) = 0 ∨
        e + shiftOf m e + shiftOf (roundedWith m e a) (e + shiftOf m e) ≤ 971 := by
  obtain ⟨final, hmantissa, hexponent, hround⟩ : ∃ final : ExtendedMantissa × ℤ,
      final.1.mantissa = roundedWith m e a / 2 ^ shiftOf (roundedWith m e a) (e + shiftOf m e) ∧
      final.2 = e + shiftOf m e + shiftOf (roundedWith m e a) (e + shiftOf m e) ∧
      roundWithAccuracy Format.binary64 s m e a =
        if h : final.1.mantissa = 0 then .zero s
        else .finite s final.1.mantissa final.2 (Nat.pos_of_ne_zero h) := by
    refine ⟨shiftToTargetExponent Format.binary64 (roundedWith m e a) (e + shiftOf m e) .exact, ?_,
      rfl, rfl⟩
    refine (mantissa_shiftRight _ _).trans ?_
    rw [mantissa_ofMantissaAndAccuracy]
    rfl
  rw [hround, ← hmantissa, ← hexponent]
  by_cases hzero : final.1.mantissa = 0
  · rw [dif_pos hzero]
    exact iff_of_true (isFinite_unpack_pack (u := .zero s) trivial) (.inl hzero)
  · rw [dif_neg hzero, isFinite_pack_iff]
    exact ⟨.inr, fun h => h.resolve_left hzero⟩

/-- **Where rounding leaves the range.** A value is rounded to a finite float exactly if it is below
the end of the range. -/
theorem isFinite_round_iff_lt {m : ℕ} {e : ℤ} {a : Accuracy} {x : ℚ}
    (hx : StandsFor (.ofMantissaAndAccuracy m a) x)
    (he : e ≤ Format.binary64.targetExponent (totalExponent m e)) (s : Sign) :
    (Float.Model.pack (roundWithAccuracy Format.binary64 s m e a)).unpack.isFinite ↔
      x * 2 ^ e < rangeEnd := by
  have hr := roundedWith_le m e a
  have hstands := hx.shiftRight (shiftOf m e)
  have hlow := hx.two_zpow_le_of_normal he
  have hhigh := hx.lt_two_zpow_of_shift e
  have htarget := add_shiftOf_eq he
  rw [isFinite_round_iff, shiftOf_rounded hr (by omega), natCast_rangeEnd]
  obtain ⟨t, ht⟩ : ∃ t, t = e + (shiftOf m e : ℤ) := ⟨_, rfl⟩
  have hexact : x * 2 ^ e = x / 2 ^ shiftOf m e * 2 ^ t := by
    rw [ht, zpow_add₀ two_ne_zero, zpow_natCast]
    field_simp
  rw [← ht] at hlow hhigh htarget ⊢
  rcases lt_trichotomy t 971 with hbelow | htop | habove
  · refine iff_of_true (.inr (by split_ifs <;> push_cast <;> omega)) (hhigh.trans_le ?_)
    calc (2 : ℚ) ^ (53 + t) ≤ 2 ^ (52 + 971 : ℤ) := zpow_le_zpow_right₀ one_le_two (by omega)
      _ = 2 ^ 52 * 2 ^ (971 : ℤ) := by rw [zpow_add₀ two_ne_zero]; rfl
      _ ≤ (2 ^ 53 - 1 / 2) * 2 ^ (971 : ℤ) :=
        mul_le_mul_of_nonneg_right (by norm_num) (by positivity)
  · -- At the last exponent the mantissa decides: it must not be rounded up to the next power.
    rw [hexact, htop, mul_lt_mul_iff_left₀ (by positivity)]
    have hodd : (2 ^ 53 - 1) % 2 = 1 := by decide
    constructor
    · intro hfinite
      by_contra hge
      have hup := hstands.lt_roundedMantissa hodd (by push_cast; linarith)
      have heq : roundedWith m e a = 2 ^ 53 := le_antisymm hr (by unfold roundedWith; omega)
      rw [if_pos heq, heq] at hfinite
      omega
    · intro hlt
      have hle := hstands.roundedMantissa_le (n := 2 ^ 53 - 1) (by push_cast; linarith)
      have hne : roundedWith m e a ≠ 2 ^ 53 := by
        unfold roundedWith
        omega
      rw [if_neg hne]
      exact .inr (by omega)
  · have hlow := hlow (by omega)
    have hbound := hlow
    rw [hexact, zpow_add₀ two_ne_zero, mul_le_mul_iff_left₀ (by positivity)] at hlow
    have hodd : (2 ^ 52 - 1) % 2 = 1 := by decide
    have hup := hstands.lt_roundedMantissa hodd (by
      rw [zpow_ofNat] at hlow
      push_cast
      linarith)
    have hpos : 2 ^ 52 ≤ roundedWith m e a := hup
    refine iff_of_false ?_ (not_lt.mpr (le_trans ?_ hbound))
    · rintro (hzero | hexponent)
      · split_ifs at hzero <;> omega
      · split_ifs at hexponent <;> omega
    · calc (2 ^ 53 - 1 / 2) * 2 ^ (971 : ℤ) ≤ (2 : ℚ) ^ 53 * 2 ^ (971 : ℤ) :=
            mul_le_mul_of_nonneg_right (by norm_num) (by positivity)
        _ = 2 ^ (53 + 971 : ℤ) := by rw [zpow_add₀ two_ne_zero]; rfl
        _ ≤ 2 ^ (52 + t) := zpow_le_zpow_right₀ one_le_two (by omega)

/-! ## Quotients -/

theorem standsFor_fraction (n : ℕ) {d : ℕ} (hd : 0 < d) :
    StandsFor (.ofMantissaAndAccuracy (n / d) (accuracyOfFraction (n % d) d)) (n / d) := by
  have hd' : (0 : ℚ) < d := by exact_mod_cast hd
  obtain ⟨part, hpart⟩ : ∃ part : ℚ, part = (n % d : ℕ) / d := ⟨_, rfl⟩
  have hone : part < 1 := by
    rw [hpart, div_lt_one hd']
    exact_mod_cast Nat.mod_lt n hd
  have hexact : (n : ℚ) / d = (n / d : ℕ) + part := by
    have hsplit : (n : ℚ) = d * (n / d : ℕ) + (n % d : ℕ) := by
      exact_mod_cast (Nat.div_add_mod n d).symm
    rw [hpart, div_eq_iff hd'.ne', add_mul, div_mul_cancel₀ _ hd'.ne', mul_comm _ (d : ℚ)]
    exact hsplit
  rw [hexact]
  unfold accuracyOfFraction
  split_ifs with hzero
  · have hnone : part = 0 := by rw [hpart, hzero, Nat.cast_zero, zero_div]
    rw [hnone, add_zero]
    exact standsFor_ofMantissaAndAccuracy _
  · have hpos : 0 < part := by
      rw [hpart]
      exact div_pos (by exact_mod_cast Nat.pos_of_ne_zero hzero) hd'
    have hdouble : 2 * part = (2 * (n % d) : ℕ) / d := by
      rw [hpart]
      push_cast
      ring
    cases hcompare : compare (2 * (n % d)) d with
    | lt =>
      have hkept : kept (.ofMantissaAndAccuracy (n / d) (.inexact .lt)) = (n / d : ℕ) := add_zero _
      have hhalf : 2 * part < 1 := by
        rw [hdouble, div_lt_one hd']
        exact_mod_cast Nat.compare_eq_lt.mp hcompare
      exact ⟨by rw [hkept]; linarith, by rw [hkept]; linarith, fun hsticky => nomatch hsticky⟩
    | eq =>
      have hkept : kept (.ofMantissaAndAccuracy (n / d) (.inexact .eq)) = (n / d : ℕ) + 1 / 2 := rfl
      have hhalf : 2 * part = 1 := by
        rw [hdouble, div_eq_one_iff_eq hd'.ne']
        exact_mod_cast Nat.compare_eq_eq.mp hcompare
      exact ⟨by rw [hkept]; linarith, by rw [hkept]; linarith, fun _ => by rw [hkept]; linarith⟩
    | gt =>
      have hkept : kept (.ofMantissaAndAccuracy (n / d) (.inexact .gt)) = (n / d : ℕ) + 1 / 2 := rfl
      have hhalf : 1 < 2 * part := by
        rw [hdouble, one_lt_div hd']
        exact_mod_cast Nat.compare_eq_gt.mp hcompare
      exact ⟨by rw [hkept]; linarith, by rw [hkept]; linarith, fun hsticky => nomatch hsticky⟩

/-- The exponent that a quotient of mantissas is taken at leaves it enough bits. -/
theorem le_targetExponent_quotient {m₁ m₂ k : ℕ} {e₁ e₂ t : ℤ} (h₁ : 0 < m₁) (h₂ : 0 < m₂)
    (hk : t + k = e₁ - e₂)
    (ht : t ≤ Format.binary64.targetExponent (totalExponent m₁ e₁ - totalExponent m₂ e₂)) :
    t ≤ Format.binary64.targetExponent (totalExponent (m₁ * 2 ^ k / m₂) t) := by
  have hlog : m₁.log2 + k < (m₁ * 2 ^ k / m₂).log2 + 1 + (m₂.log2 + 1) := by
    rw [← Nat.pow_lt_pow_iff_right one_lt_two, Nat.pow_add]
    calc 2 ^ m₁.log2 * 2 ^ k ≤ m₁ * 2 ^ k := Nat.mul_le_mul_right _ (Nat.log2_self_le h₁.ne')
      _ < (m₁ * 2 ^ k / m₂ + 1) * m₂ := by
        rw [Nat.add_one_mul]
        exact Nat.lt_div_mul_add h₂
      _ ≤ 2 ^ ((m₁ * 2 ^ k / m₂).log2 + 1) * 2 ^ (m₂.log2 + 1) :=
        Nat.mul_le_mul Nat.lt_log2_self Nat.lt_log2_self.le
      _ = 2 ^ ((m₁ * 2 ^ k / m₂).log2 + 1 + (m₂.log2 + 1)) := (Nat.pow_add 2 _ _).symm
  have htarget : Format.binary64.targetExponent (totalExponent m₁ e₁ - totalExponent m₂ e₂) =
      max (m₁.log2 + e₁ - (m₂.log2 + e₂) - 53) (-1074) := by
    show max ((m₁.log2 : ℤ) + 1 + e₁ - (m₂.log2 + 1 + e₂) - (53 : ℕ)) (-1074) = _
    congr 1
    omega
  rw [htarget] at ht
  rw [targetExponent_eq]
  omega

theorem abs_value_finite (s : Sign) (m : ℕ) (e : ℤ) (hm : 0 < m) :
    |value (.finite s m e hm)| = m * 2 ^ e := by
  have hnonneg : (0 : ℚ) ≤ m * 2 ^ e := by positivity
  cases s with
  | positive => rw [value_positive, abs_of_nonneg hnonneg]
  | negative => rw [value_negative, abs_neg, abs_of_nonneg hnonneg]

/-- **Where division leaves the range.** A quotient is a finite float exactly if its exact value is
below the end of the range. -/
theorem isFinite_div_iff {x y : Float} (hx : x.isFinite) (hy : y.isFinite) (hpos : 0 < valueOf y) :
    (x / y).isFinite ↔ |valueOf x| / valueOf y < rangeEnd := by
  show (Float.Model.pack (UnpackedFloat.div Format.binary64 x.toModel.unpack
    y.toModel.unpack)).unpack.isFinite ↔ _
  have hx : Shaped x.toModel.unpack := shaped_unpack hx
  have hy : Shaped y.toModel.unpack := shaped_unpack hy
  unfold valueOf at hpos ⊢
  cases hv : y.toModel.unpack with
  | notANumber => rw [hv] at hy; cases hy
  | infinity s => rw [hv] at hy; cases hy
  | zero s => rw [hv] at hpos; exact absurd hpos (lt_irrefl 0)
  | finite s₂ m₂ e₂ h₂ =>
    rw [hv] at hpos
    rw [← abs_of_pos hpos, abs_value_finite]
    cases hu : x.toModel.unpack with
    | notANumber => rw [hu] at hx; cases hx
    | infinity s => rw [hu] at hx; cases hx
    | zero s₁ =>
      refine iff_of_true (isFinite_unpack_pack (u := .zero (s₁ / s₂)) trivial) ?_
      rw [value_zero, abs_zero, zero_div, Nat.cast_pos]
      decide +kernel
    | finite s₁ m₁ e₁ h₁ =>
      obtain ⟨t, ht⟩ : ∃ t, t = min (e₁ - e₂)
          (Format.binary64.targetExponent (totalExponent m₁ e₁ - totalExponent m₂ e₂)) := ⟨_, rfl⟩
      obtain ⟨k, hk⟩ : ∃ k : ℕ, k = (e₁ - e₂ - t).toNat := ⟨_, rfl⟩
      have hshift : t + k = e₁ - e₂ := by omega
      have hdiv : UnpackedFloat.div Format.binary64 (.finite s₁ m₁ e₁ h₁) (.finite s₂ m₂ e₂ h₂) =
          roundWithAccuracy Format.binary64 (s₁ / s₂) (m₁ * 2 ^ k / m₂) t
            (accuracyOfFraction (m₁ * 2 ^ k % m₂) m₂) := by
        rw [hk, ht, ← Nat.shiftLeft_eq]
        rfl
      have hbits := le_targetExponent_quotient h₁ h₂ hshift (ht ▸ min_le_right _ _)
      rw [hdiv, isFinite_round_iff_lt (standsFor_fraction _ h₂) hbits, abs_value_finite]
      rw [Nat.cast_mul, Nat.cast_pow, Nat.cast_ofNat, div_mul_zpow_eq hshift]

/-! ## Whole numbers -/

theorem two_pow_le_rangeEnd {k : ℕ} (hk : k ≤ 1023) : 2 ^ k ≤ rangeEnd := by
  have hpow : 2 ^ k ≤ 2 ^ 1023 := pow_le_pow_right₀ one_le_two hk
  have hend : 2 ^ 1023 ≤ rangeEnd := by decide +kernel
  exact hpow.trans hend

theorem isFinite_ofScientific_iff {n : ℕ} (hn : 2 ^ 53 ≤ n) :
    (Float.ofScientific n false 0).isFinite ↔ n < rangeEnd := by
  have hzero : n ≠ 0 := by omega
  have hpos : 0 < n * 2 ^ 53 := Nat.mul_pos (by omega) (by decide)
  have hround : UnpackedFloat.ofScientific Format.binary64 n 0 =
      roundWithAccuracy Format.binary64 .positive (n * 2 ^ 53) (-53) .exact := by
    unfold UnpackedFloat.ofScientific
    rw [dif_neg hzero, if_neg (by decide),
      if_neg (by show ¬ (0 : ℤ) < -(2 ^ 11 + (n.log2 : ℤ)); omega), if_pos le_rfl]
    show roundWithAccuracy Format.binary64 .positive (n <<< 53 * 1) (-53 + 0) .exact = _
    rw [Nat.shiftLeft_eq, Nat.mul_one]
    rfl
  have hfloat : (Float.ofScientific n false 0).isFinite =
      (Float.Model.pack (UnpackedFloat.ofScientific Format.binary64 n 0)).unpack.isFinite := by
    unfold Float.ofScientific
    rw [dif_neg (by omega)]
    rfl
  have htarget : (-53 : ℤ) ≤
      Format.binary64.targetExponent (totalExponent (n * 2 ^ 53) (-53)) := by
    rw [targetExponent_eq, log2_mul_two_pow hzero]
    have hlog := (Nat.le_log2 hzero).mpr hn
    omega
  have hsame : ((n * 2 ^ 53 : ℕ) : ℚ) * 2 ^ (-53 : ℤ) = n := by
    rw [Nat.cast_mul, Nat.cast_pow, Nat.cast_ofNat, zpow_neg, zpow_ofNat,
      mul_inv_cancel_right₀ (by positivity)]
  rw [hfloat, hround, isFinite_round_iff_lt (standsFor_ofMantissaAndAccuracy _) htarget, hsame,
    Nat.cast_lt]

namespace Decimal

theorem isFinite_neg_iff {f : Float} : (-f).isFinite ↔ f.isFinite := by
  refine ⟨fun h => ?_, isFinite_neg⟩
  have h : (Float.Model.pack f.toModel.unpack.neg).unpack.isFinite := h
  show f.toModel.unpack.isFinite
  cases hu : f.toModel.unpack with
  | notANumber => rw [hu] at h; exact absurd h (by decide)
  | infinity s => rw [hu] at h; cases s <;> exact absurd h (by decide)
  | zero s => rfl
  | finite s m e hm => rfl

theorem isFinite_signed_iff {f : Float} {negative : Bool} :
    (signed negative f).isFinite ↔ f.isFinite := by
  cases negative with
  | false => exact Iff.rfl
  | true => exact isFinite_neg_iff

theorem isFinite_toFloat_whole_iff (negative : Bool) {n : ℕ} :
    (toFloat ⟨negative, n, 0⟩).isFinite ↔ n < rangeEnd := by
  have hwidth : 0 < width n := Nat.length_toDigits_pos
  unfold toFloat
  rw [isFinite_signed_iff]
  simp only [Int.add_zero]
  split_ifs with hzero hgreat hneg
  · obtain rfl : n = 0 := hzero.resolve_right (by omega)
    exact iff_of_true rfl (by decide +kernel)
  · have hinfinite : ¬ infinity.isFinite := by decide +kernel
    have hend : rangeEnd ≤ 10 ^ 310 := by decide +kernel
    have hlow := pow_width_le (n := n) fun h => hzero (.inl h)
    have hpow : 10 ^ 310 ≤ 10 ^ (width n - 1) := pow_le_pow_right₀ (by decide) (by omega)
    exact iff_of_false hinfinite (not_lt.mpr (hend.trans (hpow.trans hlow)))
  · exact absurd hneg (by decide)
  · by_cases hsmall : n < 2 ^ 53
    · exact iff_of_true (isFinite_ofScientific_of_small hsmall (by decide) false)
        (hsmall.trans_le (two_pow_le_rangeEnd (by decide)))
    · exact isFinite_ofScientific_iff (not_lt.mp hsmall)

/-- **Whole numbers without a float.** They are those from the end of the range on. -/
theorem floatOfInt?_eq_none_iff {n : ℤ} : floatOfInt? n = none ↔ rangeEnd ≤ n.natAbs := by
  rw [← not_lt, ← isFinite_toFloat_whole_iff (n < 0)]
  simp [floatOfInt?]

theorem isFinite_of_floatOfInt? {n : ℤ} {f : Float} (h : floatOfInt? n = some f) : f.isFinite := by
  simp only [floatOfInt?] at h
  split_ifs at h with hfinite
  obtain rfl := Option.some.inj h
  exact hfinite

end Decimal

end Breadboard
