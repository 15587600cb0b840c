import Breadboard.Decimal.Basic
import Mathlib.Algebra.Order.Field.Power
import Mathlib.Data.Nat.Cast.Order.Field
import Mathlib.Data.Rat.Cast.Order
import Mathlib.Tactic.FieldSimp
import Mathlib.Tactic.Linarith
import Mathlib.Tactic.NormNum
import Mathlib.Tactic.Positivity
import Mathlib.Tactic.Ring

/-!
# Rounding to floats

A product or a quotient of floats is finite if its exact value is below the greatest float. So every
decimal below the greatest float has a finite float.
-/

namespace Breadboard

open Float.Model Float.Model.UnpackedFloat

/-- The greatest finite float. -/
def maxFinite : ℚ := (2 ^ 53 - 1) * 2 ^ 971

/-! ## Floats packed and unpacked -/

/-- A number whose exponent is in range, so that it is packed as a finite float. -/
def Fits : UnpackedFloat → Prop
  | .zero _ => True
  | .finite _ _ e _ => e ≤ 971
  | _ => False

/-- The number that the sign, the exponent field and the mantissa field of a float stand for. -/
def ofFields (s : Sign) (x : BitVec 11) (y : BitVec 52) : UnpackedFloat :=
  if x = -1#_ then if y = 0#_ then .infinity s else .notANumber
  else if x = 0#_ then
    if h : y = 0#_ then .zero s
    else .finite s y.toNat (-1074) (Nat.pos_of_ne_zero fun heq => h (BitVec.eq_of_toNat_eq heq))
  else .finite s (2 ^ 52 + y.toNat) (x.toNat - 1075) (Nat.add_pos_left (Nat.two_pow_pos 52) _)

theorem ofFields_subnormal {y : BitVec 52} (h : y ≠ 0#_) (s : Sign) :
    ∃ hm, ofFields s 0#_ y = .finite s y.toNat (-1074) hm := by
  have hlast : (0#11 : BitVec 11) ≠ -1#_ := by decide
  exact ⟨_, (if_neg hlast).trans ((if_pos rfl).trans (dif_neg h))⟩

theorem ofFields_normal {x : BitVec 11} (hlast : x ≠ -1#_) (h : x ≠ 0#_) (s : Sign)
    (y : BitVec 52) : ∃ hm, ofFields s x y = .finite s (2 ^ 52 + y.toNat) (x.toNat - 1075) hm :=
  ⟨_, (if_neg hlast).trans (if_neg h)⟩

theorem ofFields_cases {x : BitVec 11} (hlast : x ≠ -1#_) (s : Sign) (y : BitVec 52) :
    ofFields s x y = .zero s ∨
      (∃ hm, ofFields s x y = .finite s y.toNat (-1074) hm) ∨
      x ≠ 0#_ ∧ ∃ hm, ofFields s x y = .finite s (2 ^ 52 + y.toNat) (x.toNat - 1075) hm := by
  by_cases hx : x = 0#_
  · by_cases hy : y = 0#_
    · exact .inl ((if_neg hlast).trans ((if_pos hx).trans (dif_pos hy)))
    · rw [hx]
      exact .inr (.inl (ofFields_subnormal hy s))
  · exact .inr (.inr ⟨hx, ofFields_normal hlast hx s y⟩)

theorem not_isFinite_ofFields (s : Sign) (y : BitVec 52) :
    (ofFields s (-1#_) y).isFinite = false := by
  by_cases hy : y = 0#_
  · exact congrArg UnpackedFloat.isFinite ((if_pos rfl).trans (if_pos hy))
  · exact congrArg UnpackedFloat.isFinite ((if_pos rfl).trans (if_neg hy))

theorem finite_congr {s : Sign} {m m' : Nat} {e e' : Int} {hm : 0 < m} (h : m = m') (he : e = e') :
    UnpackedFloat.finite s m e hm = .finite s m' e' (h ▸ hm) := by
  subst h he
  rfl

theorem unpack_eq_ofFields (b : BitVec Format.binary64.numBits) :
    UnpackedFloat.unpack Format.binary64 b =
      ofFields (.ofBitVec (unpackSign b)) (unpackExponent b) (unpackMantissa b) := by
  have happend (y : BitVec 52) : (1#1 ++ y).toNat = 2 ^ 52 + y.toNat := by
    rw [BitVec.toNat_append, ← Nat.shiftLeft_add_eq_or_of_lt y.isLt]
    rfl
  unfold UnpackedFloat.unpack ofFields
  dsimp only
  by_cases hlast : unpackExponent b = -1#_
  · rw [if_pos hlast, if_pos hlast]
  rw [if_neg hlast, if_neg hlast]
  by_cases hzero : unpackExponent b = 0#_
  · rw [if_pos hzero, if_pos hzero]
    by_cases hy : unpackMantissa b = 0#_
    · rw [dif_pos hy, dif_pos hy]
    · rw [dif_neg hy, dif_neg hy]
      exact finite_congr rfl (by rw [hzero]; rfl)
  · rw [if_neg hzero, if_neg hzero]
    exact finite_congr (happend _) rfl

theorem unpackSign_packComponents {spec : Format} {sign exponent mantissa} :
    unpackSign (packComponents spec sign exponent mantissa) = sign.toBitVec := by
  ext i hi
  obtain rfl : i = 0 := by omega
  unfold unpackSign packComponents
  simp [BitVec.getLsbD_append, BitVec.getElem_append]

theorem unpack_packComponents (s : Sign) (x : BitVec 11) (y : BitVec 52) :
    UnpackedFloat.unpack Format.binary64 (packComponents Format.binary64 s x y) =
      ofFields s x y := by
  have hsign : Sign.ofBitVec s.toBitVec = s := by cases s <;> rfl
  rw [unpack_eq_ofFields, unpackSign_packComponents, hsign, unpackExponent_packComponents,
    unpackMantissa_packComponents]

/-- The exponent field that a number is packed with if its exponent is in range. -/
def packedExponent (m : Nat) (e : Int) : BitVec 11 :=
  if m.log2 + 1 = 53 then BitVec.ofNat 11 (e + 1075).toNat else 0#11

theorem toNat_packedExponent {m : Nat} {e : Int} (he : e ≤ 971) :
    (packedExponent m e).toNat = if m.log2 + 1 = 53 then (e + 1075).toNat else 0 := by
  unfold packedExponent
  split
  · exact Nat.mod_eq_of_lt (by omega)
  · rfl

theorem packedExponent_ne_last {m : Nat} {e : Int} (he : e ≤ 971) : packedExponent m e ≠ -1#_ := by
  intro hlast
  have hnat : (packedExponent m e).toNat = 2047 := congrArg BitVec.toNat hlast
  rw [toNat_packedExponent he] at hnat
  split at hnat <;> omega

theorem pack_finite {s : Sign} {m : Nat} {e : Int} {hm : 0 < m} (he : e ≤ 971) :
    UnpackedFloat.pack Format.binary64 (.finite s m e hm) =
      packComponents Format.binary64 s (packedExponent m e) (BitVec.ofNat 52 m) := by
  have hbias : (e + (Format.binary64.exponentBias : Int) +
      (Format.binary64.mantissaBitsWithoutImplicit : Int)).toNat = (e + 1075).toNat := by
    show (e + 1023 + 52).toNat = _
    omega
  unfold UnpackedFloat.pack packedExponent
  dsimp only
  rw [hbias, if_neg (by show ¬ 2048 ≤ _; omega)]
  show (if m.log2 + 1 = 53 then _ else _) = _
  split <;> rfl

theorem isFinite_unpack_pack {u : UnpackedFloat} (h : Fits u) :
    (Float.Model.pack u).unpack.isFinite := by
  show (UnpackedFloat.unpack Format.binary64 (UnpackedFloat.pack Format.binary64 u)).isFinite
  cases u with
  | notANumber => cases h
  | infinity s => cases h
  | zero s => cases s <;> rfl
  | finite s m e hm =>
    rw [pack_finite h, unpack_packComponents]
    obtain hu | ⟨hm, hu⟩ | ⟨-, hm, hu⟩ := ofFields_cases (packedExponent_ne_last h) s (.ofNat 52 m)
    all_goals
      rw [hu]
      rfl

/-- The mantissa and the exponent of a float that is not zero. -/
structure IsShape (m : Nat) (e : Int) : Prop where
  mantissa_lt : m < 2 ^ 53
  exponent_ge : -1074 ≤ e
  exponent_le : e ≤ 971
  normal : 2 ^ 52 ≤ m ∨ e = -1074

theorem isShape_of_unpack {v : Float.Model} {s : Sign} {m : Nat} {e : Int} {hm : 0 < m}
    (h : v.unpack = .finite s m e hm) : IsShape m e := by
  have hbits : UnpackedFloat.unpack Format.binary64 v.toBits.toBitVec = .finite s m e hm := h
  rw [unpack_eq_ofFields] at hbits
  generalize Sign.ofBitVec (@unpackSign Format.binary64 v.toBits.toBitVec) = t at hbits
  generalize @unpackExponent Format.binary64 v.toBits.toBitVec = x at hbits
  generalize @unpackMantissa Format.binary64 v.toBits.toBitVec = y at hbits
  have hx : x.toNat < 2048 := x.isLt
  have hy : y.toNat < 2 ^ 52 := y.isLt
  have hlast : x ≠ -1#_ := by
    rintro rfl
    have hinfinite := not_isFinite_ofFields t y
    rw [hbits] at hinfinite
    cases hinfinite
  obtain hu | ⟨hm, hu⟩ | ⟨hne, hm, hu⟩ := ofFields_cases hlast t y
  · cases hu.symm.trans hbits
  · cases hu.symm.trans hbits
    exact ⟨by omega, by omega, by omega, .inr rfl⟩
  · cases hu.symm.trans hbits
    have hne : x.toNat ≠ 0 := fun heq => hne (BitVec.eq_of_toNat_eq heq)
    have hlast : x.toNat ≠ 2047 := fun heq => hlast (BitVec.eq_of_toNat_eq heq)
    exact ⟨by omega, by omega, by omega, .inl (by omega)⟩

theorem fits_unpack {v : Float.Model} (h : v.unpack.isFinite) : Fits v.unpack := by
  cases hu : v.unpack with
  | notANumber => rw [hu] at h; cases h
  | infinity s => rw [hu] at h; cases h
  | zero s => trivial
  | finite s m e hm => exact (isShape_of_unpack hu).exponent_le

/-! ## Shifting and rounding -/

theorem mantissa_shiftRight (em : ExtendedMantissa) (k : Nat) :
    (em >>> k).mantissa = em.mantissa / 2 ^ k := by
  induction k with
  | zero => exact (Nat.div_one _).symm
  | succ k ih =>
    show (em >>> k).mantissa / 2 = em.mantissa / 2 ^ (k + 1)
    rw [ih, Nat.div_div_eq_div_mul, Nat.pow_succ]

theorem roundedMantissa_le (em : ExtendedMantissa) : em.roundedMantissa ≤ em.mantissa + 1 := by
  obtain ⟨m, r, s⟩ := em
  cases r <;> cases s <;> simp only [ExtendedMantissa.roundedMantissa, ExtendedMantissa.accuracy,
    Accuracy.roundToNearestEven]
  all_goals omega

theorem mantissa_ofMantissaAndAccuracy (m : Nat) (a : Accuracy) :
    (ExtendedMantissa.ofMantissaAndAccuracy m a).mantissa = m := by
  cases a with
  | exact => rfl
  | inexact o => cases o <;> rfl

/-- By how many places a mantissa is shifted before it is rounded. -/
def shiftOf (m : Nat) (e : Int) : Nat :=
  (Format.binary64.targetExponent (totalExponent m e) - e).toNat

theorem targetExponent_eq (m : Nat) (e : Int) :
    Format.binary64.targetExponent (totalExponent m e) = max (m.log2 + e - 52) (-1074) := by
  show max ((m.log2 : Int) + 1 + e - (53 : Nat)) (-1074) = _
  congr 1
  omega

theorem div_shiftOf_lt (m : Nat) (e : Int) : m / 2 ^ shiftOf m e < 2 ^ 53 := by
  have hshift : m.log2 + 1 ≤ 53 + shiftOf m e := by
    unfold shiftOf
    rw [targetExponent_eq]
    omega
  rw [Nat.div_lt_iff_lt_mul (Nat.two_pow_pos _), ← Nat.pow_add]
  exact Nat.lt_log2_self.trans_le (Nat.pow_le_pow_right (by decide) hshift)

theorem div_mul_zpow_le (m k : Nat) (e : Int) :
    ((m / 2 ^ k : Nat) : ℚ) * 2 ^ (e + k) ≤ m * 2 ^ e := by
  have hdiv : ((m / 2 ^ k : Nat) : ℚ) * 2 ^ k ≤ m := by exact_mod_cast Nat.div_mul_le_self m (2 ^ k)
  calc ((m / 2 ^ k : Nat) : ℚ) * 2 ^ (e + k)
      = ((m / 2 ^ k : Nat) : ℚ) * 2 ^ k * 2 ^ e := by
        rw [zpow_add₀ two_ne_zero, zpow_natCast]
        ring
    _ ≤ m * 2 ^ e := mul_le_mul_of_nonneg_right hdiv (by positivity)

theorem maxFinite_lt : maxFinite < 2 ^ (1024 : Int) := by
  have hmantissa : (2 ^ 53 - 1 : ℚ) < 2 ^ 53 := by norm_num
  calc maxFinite < 2 ^ 53 * 2 ^ 971 := mul_lt_mul_of_pos_right hmantissa (by positivity)
    _ = 2 ^ (1024 : Int) := by rw [← pow_add, ← zpow_natCast]; rfl

/-- What is below `2 ^ 1024` is shifted to an exponent in range. -/
theorem add_shiftOf_le {m : Nat} {e : Int} (he : e ≤ 971)
    (hv : (m : ℚ) * 2 ^ e < 2 ^ (1024 : Int)) : e + shiftOf m e ≤ 971 := by
  have htarget : (m.log2 : Int) + e - 52 ≤ 971 := by
    by_cases hm : m = 0
    · rw [hm, Nat.log2_zero]
      omega
    · have hlow : (2 : ℚ) ^ m.log2 ≤ m := by exact_mod_cast Nat.log2_self_le hm
      have hpow : (2 : ℚ) ^ ((m.log2 : Int) + e) < 2 ^ (1024 : Int) := by
        calc (2 : ℚ) ^ ((m.log2 : Int) + e) = 2 ^ m.log2 * 2 ^ e := by
              rw [zpow_add₀ two_ne_zero, zpow_natCast]
          _ ≤ m * 2 ^ e := mul_le_mul_of_nonneg_right hlow (by positivity)
          _ < 2 ^ (1024 : Int) := hv
      have hlt := (zpow_lt_zpow_iff_right₀ (by norm_num : (1 : ℚ) < 2)).mp hpow
      omega
  unfold shiftOf
  rw [targetExponent_eq]
  omega

theorem log2_le_of_lt {n k : Nat} (h : n < 2 ^ (k + 1)) : n.log2 ≤ k := by
  by_cases hn : n = 0
  · rw [hn, Nat.log2_zero]
    exact Nat.zero_le k
  · exact Nat.le_of_lt_succ ((Nat.log2_lt hn).mpr h)

/-- What is below the greatest float stays in range when it is rounded. -/
theorem fits_roundWithAccuracy {m : Nat} {e : Int} (he : e ≤ 971)
    (hv : (m : ℚ) * 2 ^ e < maxFinite) (s : Sign) (a : Accuracy) :
    Fits (roundWithAccuracy Format.binary64 s m e a) := by
  obtain ⟨r, hr, hfinal⟩ : ∃ r, r ≤ m / 2 ^ shiftOf m e + 1 ∧
      roundWithAccuracy Format.binary64 s m e a =
        let final := shiftToTargetExponent Format.binary64 r (e + shiftOf m e) .exact
        if h : final.1.mantissa = 0 then .zero s
        else .finite s final.1.mantissa final.2 (Nat.pos_of_ne_zero h) := by
    refine ⟨_, ?_, rfl⟩
    refine (roundedMantissa_le _).trans_eq ?_
    show (ExtendedMantissa.ofMantissaAndAccuracy m a >>> shiftOf m e).mantissa + 1 = _
    rw [mantissa_shiftRight, mantissa_ofMantissaAndAccuracy]
  have hexponent := add_shiftOf_le he (hv.trans maxFinite_lt)
  -- Rounding up can reach the next power of two only below the greatest exponent.
  have hlog : (r.log2 : Int) + (e + shiftOf m e) - 52 ≤ 971 := by
    have hbits := div_shiftOf_lt m e
    by_cases htop : e + shiftOf m e = 971
    · have hbelow : m / 2 ^ shiftOf m e < 2 ^ 53 - 1 := by
        have hle := (div_mul_zpow_le m (shiftOf m e) e).trans_lt hv
        rw [htop] at hle
        have hlt : ((m / 2 ^ shiftOf m e : Nat) : ℚ) < (2 ^ 53 - 1 : Nat) := by
          have hpos : (0 : ℚ) < 2 ^ (971 : Int) := by positivity
          refine lt_of_mul_lt_mul_right (hle.trans_eq ?_) hpos.le
          unfold maxFinite
          norm_num
        exact_mod_cast hlt
      have hsmall : r.log2 ≤ 52 := log2_le_of_lt (by omega)
      omega
    · have hsmall : r.log2 ≤ 53 := log2_le_of_lt (by omega)
      omega
  rw [hfinal]
  dsimp only
  by_cases hzero :
      (shiftToTargetExponent Format.binary64 r (e + shiftOf m e) .exact).1.mantissa = 0
  · rw [dif_pos hzero]
    trivial
  · rw [dif_neg hzero]
    show (e + shiftOf m e) + (shiftOf r (e + shiftOf m e) : Nat) ≤ 971
    have htarget := targetExponent_eq r (e + shiftOf m e)
    unfold shiftOf at htarget hexponent hlog ⊢
    omega

/-! ## Products and quotients -/

theorem fits_mul {s₁ s₂ : Sign} {m₁ m₂ : Nat} {e₁ e₂ : Int} {h₁ : 0 < m₁} {h₂ : 0 < m₂}
    (he : e₁ + e₂ ≤ 971) (hv : (m₁ * 2 ^ e₁) * (m₂ * 2 ^ e₂) < maxFinite) :
    Fits (UnpackedFloat.mul Format.binary64 (.finite s₁ m₁ e₁ h₁) (.finite s₂ m₂ e₂ h₂)) := by
  refine fits_roundWithAccuracy he ?_ (s₁ * s₂) .exact
  rw [zpow_add₀ two_ne_zero, Nat.cast_mul]
  linarith

/-- The places that a dividend is shifted by are those that the exponent of the quotient is below
the difference of the exponents. -/
theorem div_mul_zpow_eq {k : Nat} {e₁ e₂ t : Int} (h : t + k = e₁ - e₂) (x y : ℚ) :
    x * 2 ^ k / y * 2 ^ t = x * 2 ^ e₁ / (y * 2 ^ e₂) := by
  calc x * 2 ^ k / y * 2 ^ t = x * 2 ^ (t + k) / y := by
        rw [zpow_add₀ two_ne_zero, zpow_natCast]
        ring
    _ = x * 2 ^ e₁ / (y * 2 ^ e₂) := by
      rw [h, zpow_sub₀ two_ne_zero, mul_div_assoc', div_div, mul_comm (2 ^ e₂)]

theorem fits_div {s₁ s₂ : Sign} {m₁ m₂ : Nat} {e₁ e₂ : Int} {h₁ : 0 < m₁} {h₂ : 0 < m₂}
    (he : e₁ - e₂ ≤ 971) (hv : (m₁ * 2 ^ e₁) / (m₂ * 2 ^ e₂) < maxFinite) :
    Fits (UnpackedFloat.div Format.binary64 (.finite s₁ m₁ e₁ h₁) (.finite s₂ m₂ e₂ h₂)) := by
  obtain ⟨t, ht⟩ : ∃ t, t = min (e₁ - e₂)
      (Format.binary64.targetExponent (totalExponent m₁ e₁ - totalExponent m₂ e₂)) := ⟨_, rfl⟩
  have hle : t ≤ e₁ - e₂ := by
    rw [ht]
    exact min_le_left _ _
  obtain ⟨k, hk⟩ : ∃ k : Nat, k = (e₁ - e₂ - t).toNat := ⟨_, rfl⟩
  have hshift : t + k = e₁ - e₂ := by omega
  suffices h : Fits (roundWithAccuracy Format.binary64 (s₁ / s₂) ((m₁ <<< k) / m₂) t
      (accuracyOfFraction ((m₁ <<< k) % m₂) m₂)) by
    rw [hk, ht] at h
    exact h
  refine fits_roundWithAccuracy (hle.trans he) (lt_of_le_of_lt ?_ hv) _ _
  have hdiv : (((m₁ <<< k) / m₂ : Nat) : ℚ) ≤ m₁ * 2 ^ k / m₂ := by
    rw [Nat.shiftLeft_eq]
    exact_mod_cast Nat.cast_div_le (α := ℚ)
  calc (((m₁ <<< k) / m₂ : Nat) : ℚ) * 2 ^ t
      ≤ m₁ * 2 ^ k / m₂ * 2 ^ t := mul_le_mul_of_nonneg_right hdiv (by positivity)
    _ = (m₁ * 2 ^ e₁) / (m₂ * 2 ^ e₂) := div_mul_zpow_eq hshift _ _

/-! ## Multiplying by one -/

theorem ofMantissaAndAccuracy_shiftRight (m k : Nat) :
    ExtendedMantissa.ofMantissaAndAccuracy (m * 2 ^ k) .exact >>> k =
      ExtendedMantissa.ofMantissaAndAccuracy m .exact := by
  induction k generalizing m with
  | zero =>
    rw [Nat.pow_zero, Nat.mul_one]
    rfl
  | succ k ih =>
    have hpow : m * 2 ^ (k + 1) = m * 2 * 2 ^ k := by
      rw [Nat.pow_succ]
      ring
    show (ExtendedMantissa.ofMantissaAndAccuracy (m * 2 ^ (k + 1)) .exact >>> k).shiftRightOne = _
    rw [hpow, ih]
    simp [ExtendedMantissa.shiftRightOne, ExtendedMantissa.ofMantissaAndAccuracy]

theorem log2_mul_two_pow {m : Nat} (hm : m ≠ 0) (k : Nat) : (m * 2 ^ k).log2 = m.log2 + k := by
  rw [Nat.log2_eq_iff (Nat.mul_ne_zero hm (Nat.two_pow_pos k).ne')]
  have hlow := Nat.mul_le_mul_right (2 ^ k) (Nat.log2_self_le hm)
  have hhigh := Nat.mul_lt_mul_of_pos_right (Nat.lt_log2_self (n := m)) (Nat.two_pow_pos k)
  rw [← Nat.pow_add] at hlow hhigh
  refine ⟨hlow, hhigh.trans_eq ?_⟩
  congr 1
  omega

/-- A mantissa followed by zeros is shifted to where it stood. -/
theorem shiftToTargetExponent_mul {m : Nat} {e : Int} (h : IsShape m e) (hm : m ≠ 0) (k : Nat) :
    shiftToTargetExponent Format.binary64 (m * 2 ^ k) (e - k) .exact =
      (ExtendedMantissa.ofMantissaAndAccuracy m .exact, e) := by
  have htarget : Format.binary64.targetExponent (totalExponent (m * 2 ^ k) (e - k)) = e := by
    have hhigh := log2_le_of_lt h.mantissa_lt
    have hlow := h.exponent_ge
    rw [targetExponent_eq, log2_mul_two_pow hm]
    rcases h.normal with hnormal | hnormal
    · have := (Nat.le_log2 hm).mpr hnormal
      omega
    · omega
  unfold shiftToTargetExponent shiftToExponent
  rw [htarget]
  simp only
  rw [show (e - (e - (k : Int))).toNat = k by omega, ofMantissaAndAccuracy_shiftRight]
  congr 1
  omega

/-- A mantissa is shifted twice, since rounding may have made it one place too long. -/
theorem roundWithAccuracy_of_shifts {m n : Nat} {e f f' : Int} {em : ExtendedMantissa} (hn : 0 < n)
    (hfirst : shiftToTargetExponent Format.binary64 m e .exact = (em, f))
    (hagain : shiftToTargetExponent Format.binary64 em.roundedMantissa f .exact =
      (.ofMantissaAndAccuracy n .exact, f')) (s : Sign) :
    roundWithAccuracy Format.binary64 s m e .exact = .finite s n f' hn := by
  unfold roundWithAccuracy
  rw [hfirst]
  dsimp only
  rw [hagain]
  exact dif_neg hn.ne'

/-- A number that needs no rounding is not changed by it. -/
theorem roundWithAccuracy_mul {m : Nat} {e : Int} (h : IsShape m e) (hm : 0 < m) (s : Sign)
    (k : Nat) :
    roundWithAccuracy Format.binary64 s (m * 2 ^ k) (e - k) .exact = .finite s m e hm := by
  have hagain := shiftToTargetExponent_mul h hm.ne' 0
  rw [Nat.pow_zero, Nat.mul_one, Nat.cast_zero, Int.sub_zero] at hagain
  exact roundWithAccuracy_of_shifts hm (shiftToTargetExponent_mul h hm.ne' k) hagain s

/-! ## Decimals as floats -/

theorem exponent_unpack_pack_le {s s' : Sign} {m m' : Nat} {e e' : Int} {hm : 0 < m} {hm' : 0 < m'}
    (he : e ≤ 971)
    (h : (Float.Model.pack (.finite s m e hm)).unpack = .finite s' m' e' hm') :
    e' ≤ max e (-1074) := by
  have hfield : ((packedExponent m e).toNat : Int) ≤ max (e + 1075) 0 := by
    rw [toNat_packedExponent he]
    split <;> omega
  have hbits : UnpackedFloat.unpack Format.binary64
      (UnpackedFloat.pack Format.binary64 (.finite s m e hm)) = .finite s' m' e' hm' := h
  rw [pack_finite he, unpack_packComponents] at hbits
  obtain hu | ⟨hm, hu⟩ | ⟨-, hm, hu⟩ := ofFields_cases (packedExponent_ne_last he) s (.ofNat 52 m)
  all_goals cases hu.symm.trans hbits
  · omega
  · omega

theorem exists_ofNat {m : Nat} (hm : 0 < m) (h : m < 2 ^ 53) :
    ∃ n e hn, e ≤ 0 ∧ UnpackedFloat.ofNat Format.binary64 m = .finite .positive n e hn := by
  have hlog : m.log2 ≤ 52 := log2_le_of_lt h
  have hshape : IsShape (m * 2 ^ (52 - m.log2)) (-(52 - m.log2 : Nat)) := by
    have hlow := Nat.mul_le_mul_right (2 ^ (52 - m.log2)) (Nat.log2_self_le hm.ne')
    have hhigh := Nat.mul_lt_mul_of_pos_right (Nat.lt_log2_self (n := m))
      (Nat.two_pow_pos (52 - m.log2))
    rw [← Nat.pow_add] at hlow hhigh
    rw [show m.log2 + (52 - m.log2) = 52 by omega] at hlow
    rw [show m.log2 + 1 + (52 - m.log2) = 53 by omega] at hhigh
    exact ⟨hhigh, by omega, by omega, .inl hlow⟩
  have hpos : 0 < m * 2 ^ (52 - m.log2) := Nat.mul_pos hm (Nat.two_pow_pos _)
  have hround := roundWithAccuracy_mul hshape hpos .positive 0
  rw [Nat.pow_zero, Nat.mul_one, Nat.cast_zero, Int.sub_zero] at hround
  have htarget : Format.binary64.targetExponent (totalExponent m 0) = -(52 - m.log2 : Nat) := by
    rw [targetExponent_eq]
    omega
  refine ⟨_, -(52 - m.log2 : Nat), hpos, by omega, ?_⟩
  have hcompare : compare (m : Int) 0 = .gt := Int.compare_eq_gt.mpr (by omega)
  unfold UnpackedFloat.ofNat UnpackedFloat.ofInt UnpackedFloat.normalize
  rw [hcompare]
  show UnpackedFloat.round Format.binary64 .positive m 0 = _
  unfold UnpackedFloat.round decreaseExponent
  rw [htarget]
  dsimp only
  rw [Int.zero_sub, Int.neg_neg, Int.toNat_natCast, Int.zero_sub, Nat.shiftLeft_eq]
  exact hround

theorem unpack_toFloat {m : Nat} (h : m < 2 ^ 53) :
    (∃ s, m.toUInt64.toFloat.toModel.unpack = .zero s) ∨
      ∃ s n e hn, m.toUInt64.toFloat.toModel.unpack = .finite s n e hn ∧ e ≤ 0 ∧
        (n : ℚ) * 2 ^ e < 2 ^ 53 := by
  have hnat : m.toUInt64.toNat = m := Nat.mod_eq_of_lt (h.trans (by decide))
  have hmodel : m.toUInt64.toFloat.toModel =
      Float.Model.pack (UnpackedFloat.ofNat Format.binary64 m) := by
    show Float.Model.pack (UnpackedFloat.ofNat Format.binary64 m.toUInt64.toNat) = _
    rw [hnat]
  rw [hmodel]
  by_cases hm : m = 0
  · rw [hm]
    exact .inl ⟨.positive, rfl⟩
  · obtain ⟨n, e, hn, he, hof⟩ := exists_ofNat (Nat.pos_of_ne_zero hm) h
    rw [hof]
    have hfits : Fits (.finite .positive n e hn) := he.trans (by decide)
    have hfinite := isFinite_unpack_pack hfits
    cases hu : (Float.Model.pack (.finite .positive n e hn)).unpack with
    | notANumber => rw [hu] at hfinite; cases hfinite
    | infinity s => rw [hu] at hfinite; cases hfinite
    | zero s => exact .inl ⟨s, rfl⟩
    | finite s k f hk =>
      have hf := exponent_unpack_pack_le hfits hu
      have hle : f ≤ 0 := hf.trans (max_le he (by decide))
      refine .inr ⟨s, k, f, hk, rfl, hle, ?_⟩
      have hmantissa : (k : ℚ) < 2 ^ 53 := by exact_mod_cast (isShape_of_unpack hu).mantissa_lt
      have hpow : (2 : ℚ) ^ f ≤ 1 := zpow_le_one_of_nonpos₀ one_le_two hle
      calc (k : ℚ) * 2 ^ f ≤ k * 1 := mul_le_mul_of_nonneg_left hpow (by positivity)
        _ < 2 ^ 53 := by rwa [mul_one]

/-- The powers of ten that are floats themselves. -/
theorem unpack_powerOfTen (i : Fin 23) :
    ∃ s p k hp, (Float.exactlyRepresentablePowersOfTen[i]).toModel.unpack = .finite s p k hp ∧
      -52 ≤ k ∧ k ≤ 21 ∧ 1 ≤ (p : ℚ) * 2 ^ k ∧ (p : ℚ) * 2 ^ k ≤ 2 ^ 74 := by
  have hall : ∀ i : Fin 23,
      (match (Float.exactlyRepresentablePowersOfTen[i]).toModel.unpack with
        | .finite _ p k _ => decide (2 ^ 52 ≤ p ∧ -52 ≤ k ∧ k ≤ 21)
        | _ => false) = true := by
    decide +kernel
  have h := hall i
  cases heq : (Float.exactlyRepresentablePowersOfTen[i]).toModel.unpack with
  | notANumber | infinity | zero =>
    rw [heq] at h
    cases h
  | finite s p k hp =>
    rw [heq] at h
    obtain ⟨hmantissa, hlow, hhigh⟩ := of_decide_eq_true h
    have hge : (2 : ℚ) ^ 52 ≤ p := by exact_mod_cast hmantissa
    have hlt : (p : ℚ) < 2 ^ 53 := by exact_mod_cast (isShape_of_unpack heq).mantissa_lt
    refine ⟨s, p, k, hp, rfl, hlow, hhigh, ?_, ?_⟩
    · calc (1 : ℚ) = 2 ^ 52 * 2 ^ (-52 : Int) := by norm_num
        _ ≤ p * 2 ^ k :=
          mul_le_mul hge (zpow_le_zpow_right₀ one_le_two hlow) (by positivity) (by positivity)
    · calc (p : ℚ) * 2 ^ k ≤ 2 ^ 53 * 2 ^ (21 : Int) :=
            mul_le_mul hlt.le (zpow_le_zpow_right₀ one_le_two hhigh) (by positivity) (by positivity)
        _ = 2 ^ 74 := by norm_num

theorem two_pow_le_maxFinite {n : Nat} (h : n ≤ 971) : (2 : ℚ) ^ n ≤ maxFinite := by
  have hmantissa : (1 : ℚ) ≤ 2 ^ 53 - 1 := by norm_num
  calc (2 : ℚ) ^ n ≤ 2 ^ 971 := pow_le_pow_right₀ one_le_two h
    _ ≤ maxFinite := le_mul_of_one_le_left (by positivity) hmantissa

theorem isFinite_ofScientific_of_small {m e : Nat} (hm : m < 2 ^ 53) (he : e ≤ 22) (s : Bool) :
    (Float.ofScientific m s e).isFinite := by
  obtain ⟨_, p, k, hp, hpower, hk, hk', hlow, hhigh⟩ := unpack_powerOfTen ⟨e, by omega⟩
  unfold Float.ofScientific
  rw [dif_pos ⟨hm, he⟩]
  cases s with
  | false =>
    refine isFinite_unpack_pack (u := UnpackedFloat.mul Format.binary64
      m.toUInt64.toFloat.toModel.unpack
      (Float.exactlyRepresentablePowersOfTen[(⟨e, by omega⟩ : Fin 23)]).toModel.unpack) ?_
    rw [hpower]
    rcases unpack_toFloat hm with ⟨s, hu⟩ | ⟨s, n, f, hn, hu, hf, hv⟩
    · rw [hu]
      trivial
    · rw [hu]
      refine fits_mul (by omega) ?_
      calc (n : ℚ) * 2 ^ f * (p * 2 ^ k) < 2 ^ 53 * 2 ^ 74 :=
            mul_lt_mul hv hhigh (by positivity) (by positivity)
        _ = 2 ^ 127 := by rw [← pow_add]
        _ ≤ maxFinite := two_pow_le_maxFinite (by decide)
  | true =>
    refine isFinite_unpack_pack (u := UnpackedFloat.div Format.binary64
      m.toUInt64.toFloat.toModel.unpack
      (Float.exactlyRepresentablePowersOfTen[(⟨e, by omega⟩ : Fin 23)]).toModel.unpack) ?_
    rw [hpower]
    rcases unpack_toFloat hm with ⟨s, hu⟩ | ⟨s, n, f, hn, hu, hf, hv⟩
    · rw [hu]
      trivial
    · rw [hu]
      refine fits_div (by omega) ?_
      calc (n : ℚ) * 2 ^ f / (p * 2 ^ k) ≤ n * 2 ^ f := div_le_self (by positivity) hlow
        _ < 2 ^ 53 := hv
        _ ≤ maxFinite := two_pow_le_maxFinite (by decide)

/-- The product or quotient of a whole number and a power of ten is finite below the greatest
float. -/
theorem fits_ofScientific {m : Nat} {e : Int} (h : (m : ℚ) * 10 ^ e < maxFinite) :
    Fits (UnpackedFloat.ofScientific Format.binary64 m e) := by
  unfold UnpackedFloat.ofScientific
  by_cases hm : m = 0
  · rw [dif_pos hm]
    trivial
  rw [dif_neg hm]
  have hone : (1 : ℚ) ≤ m := by exact_mod_cast Nat.pos_of_ne_zero hm
  by_cases hlarge : e > 2 ^ Format.binary64.exponentBits
  · have hlarge : (2048 : Int) < e := hlarge
    refine absurd (h.trans maxFinite_lt) (not_lt.mpr ?_)
    calc (2 : ℚ) ^ (1024 : Int) ≤ 2 ^ e := zpow_le_zpow_right₀ one_le_two (by omega)
      _ ≤ 10 ^ e := zpow_le_zpow_left₀ (by omega) (by norm_num) (by norm_num)
      _ ≤ m * 10 ^ e := le_mul_of_one_le_left (by positivity) hone
  rw [if_neg hlarge]
  by_cases hsmall : e < -(2 ^ Format.binary64.exponentBits + (m.log2 : Int))
  · rw [if_pos hsmall]
    trivial
  rw [if_neg hsmall]
  by_cases hpos : 0 ≤ e
  · rw [if_pos hpos]
    refine fits_mul (by decide) (lt_of_eq_of_lt ?_ h)
    have hten : (10 : ℚ) ^ e = 10 ^ e.toNat := by
      rw [← zpow_natCast, Int.toNat_of_nonneg hpos]
    rw [hten, Nat.shiftLeft_eq]
    show ((m * 2 ^ 53 : Nat) : ℚ) * 2 ^ (-53 : Int) * ((10 ^ e.toNat : Nat) * 2 ^ (0 : Int)) = _
    push_cast
    ring
  · rw [if_neg hpos]
    refine fits_div (by decide) (lt_of_eq_of_lt ?_ h)
    have hten : (10 : ℚ) ^ e = (10 ^ (-e).toNat)⁻¹ := by
      rw [← zpow_natCast, Int.toNat_of_nonneg (by omega), zpow_neg, inv_inv]
    rw [hten]
    push_cast
    ring

theorem isFinite_ofScientific {m e : Nat} {s : Bool}
    (h : (m : ℚ) * 10 ^ (if s then -e else e : Int) < maxFinite) :
    (Float.ofScientific m s e).isFinite := by
  by_cases hsmall : m < 2 ^ 53 ∧ e ≤ 22
  · exact isFinite_ofScientific_of_small hsmall.1 hsmall.2 s
  · unfold Float.ofScientific
    rw [dif_neg hsmall]
    refine isFinite_unpack_pack (u := UnpackedFloat.ofScientific Format.binary64 m
      (if s then Int.negOfNat e else Int.ofNat e)) (fits_ofScientific ?_)
    cases s with
    | false => exact h
    | true =>
      rw [if_pos rfl, Int.negOfNat_eq]
      exact h

/-! ## Decimals -/

namespace Decimal

/-- The magnitude of a decimal. -/
def magnitude (d : Decimal) : ℚ := d.coefficient * 10 ^ d.exponent

theorem isFinite_neg {f : Float} (h : f.isFinite) : (-f).isFinite := by
  have hfits := fits_unpack (v := f.toModel) h
  refine isFinite_unpack_pack (u := f.toModel.unpack.neg) ?_
  cases hu : f.toModel.unpack with
  | notANumber => rw [hu] at hfits; cases hfits
  | infinity s => rw [hu] at hfits; cases hfits
  | zero s => trivial
  | finite s m e hm => rwa [hu] at hfits

theorem isFinite_signed {f : Float} (h : f.isFinite) (negative : Bool) :
    (signed negative f).isFinite := by
  cases negative with
  | false => exact h
  | true => exact isFinite_neg h

/-- The highest digit of a number is not zero. -/
theorem pow_width_le {n : Nat} (h : n ≠ 0) : 10 ^ (width n - 1) ≤ n := by
  by_cases hone : width n = 1
  · rw [hone]
    exact Nat.one_le_iff_ne_zero.mpr h
  · have hpos : 0 < width n := Nat.length_toDigits_pos
    rw [← Nat.not_lt, ← Nat.length_toDigits_le_iff (by decide) (by omega)]
    show ¬ width n ≤ width n - 1
    omega

theorem lt_pow_width (n : Nat) : n < 10 ^ width n :=
  (Nat.length_toDigits_le_iff (by decide) Nat.length_toDigits_pos).mp le_rfl

theorem maxFinite_lt_ten_pow : maxFinite < 10 ^ (309 : Int) := by
  have hnat : 2 ^ 1024 ≤ 10 ^ 309 := by decide +kernel
  have hrat : (2 : ℚ) ^ 1024 ≤ 10 ^ 309 := by exact_mod_cast hnat
  exact maxFinite_lt.trans_le hrat

/-- A decimal below the greatest float has a finite float. -/
theorem isFinite_toFloat {d : Decimal} (h : d.magnitude < maxFinite) : d.toFloat.isFinite := by
  unfold toFloat
  refine isFinite_signed ?_ d.negative
  split
  · rfl
  · next hzero =>
    have hzero : d.coefficient ≠ 0 := fun heq => hzero (.inl heq)
    split
    · next hlarge =>
      refine absurd h (not_lt.mpr (maxFinite_lt_ten_pow.le.trans ?_))
      have hwidth : (10 : ℚ) ^ (width d.coefficient - 1) ≤ d.coefficient := by
        exact_mod_cast pow_width_le hzero
      calc (10 : ℚ) ^ (309 : Int)
          ≤ 10 ^ (((width d.coefficient - 1 : Nat) : Int) + d.exponent) :=
            zpow_le_zpow_right₀ (by norm_num) (by omega)
        _ = 10 ^ (width d.coefficient - 1) * 10 ^ d.exponent := by
            rw [zpow_add₀ (by norm_num), zpow_natCast]
        _ ≤ d.magnitude := mul_le_mul_of_nonneg_right hwidth (by positivity)
    · split
      · next hneg =>
        refine isFinite_ofScientific (lt_of_eq_of_lt ?_ h)
        rw [if_pos rfl, magnitude, show -(d.exponent.natAbs : Int) = d.exponent by omega]
      · next hpos =>
        refine isFinite_ofScientific (lt_of_eq_of_lt ?_ h)
        rw [if_neg Bool.false_ne_true, magnitude,
          show (d.exponent.natAbs : Int) = d.exponent by omega]

end Decimal

end Breadboard
