import Breadboard.Proofs.Decimal.Order
import Breadboard.Proofs.Decimal.Rounding

/-!
# Sums and differences of floats

A sum or a difference of finite floats is the float nearest to the exact value. Finite floats are
ordered as their values are.
-/

namespace Breadboard

open Float.Model Float.Model.UnpackedFloat

/-! ## The values of floats -/

/-- The value of a finite number; other numbers get zero. -/
def value : UnpackedFloat → ℚ
  | .finite s m e _ => (s.apply m : ℤ) * 2 ^ e
  | _ => 0

theorem value_zero (s : Sign) : value (.zero s) = 0 := rfl

theorem value_positive {m : ℕ} {e : ℤ} (hm : 0 < m) :
    value (.finite .positive m e hm) = m * 2 ^ e := rfl

theorem value_negative {m : ℕ} {e : ℤ} (hm : 0 < m) :
    value (.finite .negative m e hm) = -(m * 2 ^ e) := by
  show ((-(m : ℤ) : ℤ) : ℚ) * 2 ^ e = _
  rw [Int.cast_neg, Int.cast_natCast, neg_mul]

/-- The value of a finite float. -/
def valueOf (f : Float) : ℚ := value f.toModel.unpack

theorem valueOf_zero : valueOf 0.0 = 0 := by rfl

/-- A finite number as floats have it. -/
def Shaped : UnpackedFloat → Prop
  | .zero _ => True
  | .finite _ m e _ => IsShape m e
  | _ => False

theorem shaped_unpack {v : Float.Model} (h : v.unpack.isFinite) : Shaped v.unpack := by
  cases hu : v.unpack with
  | notANumber => rw [hu] at h; cases h
  | infinity s => rw [hu] at h; cases h
  | zero s => trivial
  | finite s m e hm => exact isShape_of_unpack hu

theorem unpack_pack {u : UnpackedFloat} (h : Shaped u) : (Float.Model.pack u).unpack = u := by
  show UnpackedFloat.unpack Format.binary64 (UnpackedFloat.pack Format.binary64 u) = u
  cases u with
  | notANumber => cases h
  | infinity s => cases h
  | zero s => cases s <;> rfl
  | finite s m e hm =>
    have h : IsShape m e := h
    have hlow := h.exponent_ge
    have hlt := h.mantissa_lt
    have hfield := toNat_packedExponent (m := m) h.exponent_le
    have hlog : m.log2 + 1 = 53 ↔ 2 ^ 52 ≤ m := by
      rw [← Nat.le_log2 hm.ne']
      have := log2_le_of_lt (k := 52) hlt
      omega
    rw [pack_finite h.exponent_le, unpack_packComponents]
    by_cases hnormal : 2 ^ 52 ≤ m
    · rw [if_pos (hlog.mpr hnormal)] at hfield
      have hfirst : packedExponent m e ≠ 0#_ := by
        intro hzero
        have hnat : (packedExponent m e).toNat = 0 := congrArg BitVec.toNat hzero
        omega
      have hmantissa : 2 ^ 52 + (BitVec.ofNat 52 m).toNat = m := by
        rw [BitVec.toNat_ofNat]
        omega
      obtain ⟨hm', hu⟩ := ofFields_normal (packedExponent_ne_last h.exponent_le) hfirst s
        (BitVec.ofNat 52 m)
      exact hu.trans (finite_congr hmantissa (by omega))
    · rw [if_neg (mt hlog.mp hnormal)] at hfield
      have hfirst : packedExponent m e = 0#_ := BitVec.eq_of_toNat_eq hfield
      have hmantissa : (BitVec.ofNat 52 m).toNat = m := Nat.mod_eq_of_lt (by omega)
      have hzero : BitVec.ofNat 52 m ≠ 0#_ := by
        intro heq
        exact hm.ne' (hmantissa.symm.trans (congrArg BitVec.toNat heq))
      obtain ⟨hm', hu⟩ := ofFields_subnormal hzero s
      rw [hfirst]
      exact hu.trans (finite_congr hmantissa (h.normal.resolve_left hnormal).symm)

/-! ## Rounding a mantissa -/

/-- The part of a number that its mantissa and its round bit give. -/
def kept (em : ExtendedMantissa) : ℚ := em.mantissa + if em.roundBit then 1 / 2 else 0

/-- A mantissa with its round bit and its sticky bit, and the number that it was shifted from. -/
structure StandsFor (em : ExtendedMantissa) (x : ℚ) : Prop where
  le : kept em ≤ x
  lt : x < kept em + 1 / 2
  exact : em.stickyBit = false → x = kept em

theorem standsFor_ofMantissaAndAccuracy (m : Nat) :
    StandsFor (.ofMantissaAndAccuracy m .exact) m := by
  have hkept : kept (.ofMantissaAndAccuracy m .exact) = m := add_zero _
  exact ⟨hkept.le, by rw [hkept]; linarith, fun _ => hkept.symm⟩

/-- A shift by one place keeps the mantissa in full. -/
theorem kept_shiftRightOne (em : ExtendedMantissa) : kept em.shiftRightOne = em.mantissa / 2 := by
  have hdiv : ((em.mantissa % 2 : ℕ) : ℚ) + 2 * (em.mantissa / 2 : ℕ) = em.mantissa := by
    exact_mod_cast Nat.mod_add_div em.mantissa 2
  unfold kept ExtendedMantissa.shiftRightOne
  rcases Nat.mod_two_eq_zero_or_one em.mantissa with hm | hm
  · rw [hm] at hdiv ⊢
    rw [← hdiv]
    norm_num
  · rw [hm] at hdiv ⊢
    rw [← hdiv]
    norm_num
    ring

theorem StandsFor.shiftRightOne {em : ExtendedMantissa} {x : ℚ} (h : StandsFor em x) :
    StandsFor em.shiftRightOne (x / 2) := by
  have hlow : (em.mantissa : ℚ) ≤ kept em := by
    unfold kept
    split <;> linarith
  have hhigh : kept em ≤ (em.mantissa : ℚ) + 1 / 2 := by
    unfold kept
    split <;> linarith
  have hle := h.le
  have hlt := h.lt
  refine ⟨?_, ?_, fun hsticky => ?_⟩
  · rw [kept_shiftRightOne]
    linarith
  · rw [kept_shiftRightOne]
    linarith
  · obtain ⟨hround, hsticky⟩ := Bool.or_eq_false_iff.mp hsticky
    have hkept : kept em = em.mantissa := by
      unfold kept
      rw [hround]
      exact add_zero _
    rw [kept_shiftRightOne, h.exact hsticky, hkept]

theorem StandsFor.shiftRight {em : ExtendedMantissa} {x : ℚ} (h : StandsFor em x) (k : Nat) :
    StandsFor (em >>> k) (x / 2 ^ k) := by
  induction k with
  | zero =>
    rw [pow_zero, div_one]
    exact h
  | succ k ih =>
    rw [pow_succ, ← div_div]
    exact ih.shiftRightOne

/-- Rounding a mantissa errs by at most half a unit. -/
theorem StandsFor.abs_roundedMantissa_sub_le {em : ExtendedMantissa} {x : ℚ}
    (h : StandsFor em x) : |(em.roundedMantissa : ℚ) - x| ≤ 1 / 2 := by
  obtain ⟨hle, hlt, hexact⟩ := h
  obtain ⟨m, r, s⟩ := em
  unfold kept at hle hlt hexact
  rw [abs_le]
  cases r with
  | false =>
    have hrounded : ExtendedMantissa.roundedMantissa ⟨m, false, s⟩ = m := by cases s <;> rfl
    rw [hrounded]
    norm_num at hle hlt
    constructor <;> linarith
  | true =>
    norm_num at hle hlt hexact
    cases s with
    | false =>
      have hrounded : ExtendedMantissa.roundedMantissa ⟨m, true, false⟩ = m + m % 2 := rfl
      have heven : ((m % 2 : ℕ) : ℚ) ≤ 1 := by
        exact_mod_cast Nat.le_of_lt_succ (Nat.mod_lt m two_pos)
      have hzero : (0 : ℚ) ≤ (m % 2 : ℕ) := Nat.cast_nonneg _
      rw [hrounded, hexact rfl, Nat.cast_add]
      constructor <;> linarith
    | true =>
      have hrounded : ExtendedMantissa.roundedMantissa ⟨m, true, true⟩ = m + 1 := rfl
      rw [hrounded, Nat.cast_add, Nat.cast_one]
      constructor <;> linarith

/-! ## Nearest numbers -/

/-- A number that is a float, however great. -/
def Representable (q : ℚ) : Prop := ∃ (n : ℤ) (e : ℤ), |n| < 2 ^ 53 ∧ -1074 ≤ e ∧ q = n * 2 ^ e

theorem representable_zero : Representable 0 := ⟨0, 0, by norm_num, by norm_num, by norm_num⟩

/-- No number that is a float is nearer to `x`. -/
def Nearest (r x : ℚ) : Prop := ∀ q, Representable q → |r - x| ≤ |q - x|

theorem nearest_self (x : ℚ) : Nearest x x := by
  intro q _
  rw [sub_self, abs_zero]
  exact abs_nonneg _

theorem Representable.neg {q : ℚ} (h : Representable q) : Representable (-q) := by
  obtain ⟨n, e, hn, he, rfl⟩ := h
  exact ⟨-n, e, by rwa [abs_neg], he, by push_cast; ring⟩

theorem Nearest.neg {r x : ℚ} (h : Nearest r x) : Nearest (-r) (-x) := by
  intro q hq
  have hle := h (-q) hq.neg
  rw [← abs_neg (r - x), ← abs_neg (-q - x)] at hle
  convert hle using 2 <;> ring

theorem Nearest.le {r x q : ℚ} (h : Nearest r x) (hq : Representable q) (hle : x ≤ q) : r ≤ q := by
  by_contra hlt
  have habs := h q hq
  rw [abs_of_nonneg (by linarith : 0 ≤ r - x), abs_of_nonneg (by linarith : 0 ≤ q - x)] at habs
  linarith

theorem Nearest.ge {r x q : ℚ} (h : Nearest r x) (hq : Representable q) (hle : q ≤ x) : q ≤ r := by
  have hneg := h.neg.le hq.neg (neg_le_neg hle)
  linarith

theorem two_zpow_eq_mul {a b : ℤ} (h : a ≤ b) : (2 : ℚ) ^ b = 2 ^ (b - a).toNat * 2 ^ a := by
  rw [← zpow_natCast, ← zpow_add₀ two_ne_zero, Int.toNat_of_nonneg (by omega)]
  congr 1
  omega

/-- A number that is a float is a multiple of a power of two, or has less than 53 bits above it. -/
theorem Representable.multiple_or_lt {q : ℚ} (h : Representable q) (k : ℤ) :
    (∃ n : ℤ, q = n * 2 ^ k) ∨ -1074 < k ∧ |q| < 2 ^ (52 + k) := by
  obtain ⟨n, e, hn, he, rfl⟩ := h
  rcases le_or_gt k e with hle | hlt
  · refine .inl ⟨n * 2 ^ (e - k).toNat, ?_⟩
    rw [two_zpow_eq_mul hle]
    push_cast
    ring
  · refine .inr ⟨by omega, ?_⟩
    have hn : |(n : ℚ)| < 2 ^ 53 := by exact_mod_cast hn
    have hpow : (0 : ℚ) < 2 ^ e := zpow_pos two_pos e
    rw [abs_mul, abs_of_pos hpow]
    calc |(n : ℚ)| * 2 ^ e < 2 ^ 53 * 2 ^ e := mul_lt_mul_of_pos_right hn (by positivity)
      _ = 2 ^ (53 + e) := by rw [zpow_add₀ two_ne_zero]; rfl
      _ ≤ 2 ^ (52 + k) := zpow_le_zpow_right₀ one_le_two (by omega)

/-- The least float above zero. -/
def leastFloat : ℚ := 2 ^ (-1074 : ℤ)

theorem leastFloat_pos : 0 < leastFloat := zpow_pos two_pos _

theorem leastFloat_le {q : ℚ} (hq : Representable q) (hpos : 0 < q) : leastFloat ≤ q := by
  rcases hq.multiple_or_lt (-1074) with ⟨n, rfl⟩ | ⟨hlt, -⟩
  · have hn : 0 < n := by exact_mod_cast pos_of_mul_pos_left hpos leastFloat_pos.le
    have hone : (1 : ℚ) ≤ n := by exact_mod_cast hn
    exact le_mul_of_one_le_left leastFloat_pos.le hone
  · exact absurd hlt (lt_irrefl _)

/-! ## The end of the range -/

/-- The middle between the greatest float and the next power of two. -/
def rangeEnd : ℕ := 2 ^ 1024 - 2 ^ 970

theorem natCast_rangeEnd : (rangeEnd : ℚ) = (2 ^ 53 - 1 / 2) * 2 ^ (971 : ℤ) := by
  have hle : 2 ^ 970 ≤ 2 ^ 1024 := pow_le_pow_right₀ one_le_two (by decide)
  have hwhole : (2 : ℚ) ^ 1024 = 2 ^ 54 * 2 ^ 970 := by rw [← pow_add]
  have hunit : (2 : ℚ) ^ (971 : ℤ) = 2 * 2 ^ 970 := by rw [← pow_succ', zpow_ofNat]
  unfold rangeEnd
  rw [Nat.cast_sub hle, Nat.cast_pow, Nat.cast_pow, Nat.cast_ofNat, hwhole, hunit]
  generalize (2 : ℚ) ^ 970 = half
  ring

theorem maxFinite_lt_rangeEnd : maxFinite < rangeEnd := by
  rw [natCast_rangeEnd, zpow_ofNat]
  exact mul_lt_mul_of_pos_right (by norm_num) (by positivity)

theorem maxFinite_le_pred_rangeEnd : maxFinite ≤ (rangeEnd - 1 : ℕ) := by
  have hpos : 1 ≤ rangeEnd := by decide +kernel
  have hhalf : (1 : ℚ) ≤ 2 ^ 970 := one_le_pow₀ one_le_two
  have hunit : (2 : ℚ) ^ 971 = 2 * 2 ^ 970 := pow_succ' 2 970
  rw [Nat.cast_sub hpos, natCast_rangeEnd, maxFinite, zpow_ofNat, hunit]
  push_cast
  generalize (2 : ℚ) ^ 970 = half at hhalf ⊢
  linarith

theorem rangeEnd_lt : (rangeEnd : ℚ) < 2 ^ (1024 : ℤ) := by
  calc (rangeEnd : ℚ) = (2 ^ 53 - 1 / 2) * 2 ^ (971 : ℤ) := natCast_rangeEnd
    _ < 2 ^ 53 * 2 ^ (971 : ℤ) := mul_lt_mul_of_pos_right (by norm_num) (by positivity)
    _ = 2 ^ (1024 : ℤ) := by rw [← zpow_natCast, ← zpow_add₀ two_ne_zero]; rfl

/-! ## Rounding -/

/-- No whole number is nearer than one that is at most half a unit away. -/
theorem abs_sub_le_of_half {r : ℕ} {x : ℚ} (h : |(r : ℚ) - x| ≤ 1 / 2) (n : ℤ) :
    |(r : ℚ) - x| ≤ |n - x| := by
  by_cases hn : n = r
  · rw [hn]
    rfl
  · have hone : (1 : ℚ) ≤ |(n : ℚ) - r| := by
      exact_mod_cast Int.one_le_abs (sub_ne_zero.mpr hn)
    have htriangle : |(n : ℚ) - r| ≤ |n - x| + |(r : ℚ) - x| := by
      rw [abs_sub_comm (r : ℚ) x]
      exact abs_sub_le (n : ℚ) x r
    linarith

/-- The rounded mantissa. -/
def roundedTo (m : Nat) (e : Int) : Nat :=
  (ExtendedMantissa.ofMantissaAndAccuracy m .exact >>> shiftOf m e).roundedMantissa

theorem roundedTo_le (m : Nat) (e : Int) : roundedTo m e ≤ 2 ^ 53 := by
  have hle := roundedMantissa_le (ExtendedMantissa.ofMantissaAndAccuracy m .exact >>> shiftOf m e)
  rw [mantissa_shiftRight, mantissa_ofMantissaAndAccuracy] at hle
  have := div_shiftOf_lt m e
  unfold roundedTo
  omega

theorem add_shiftOf_eq {m : Nat} {e : Int}
    (he : e ≤ Format.binary64.targetExponent (totalExponent m e)) :
    e + (shiftOf m e : Int) = max (m.log2 + e - 52) (-1074) := by
  unfold shiftOf
  rw [targetExponent_eq] at he ⊢
  omega

/-- Unless the exponent is the least one, the exact value has 53 bits above it. -/
theorem two_zpow_le_of_normal {m : Nat} {e : Int} (hm : 0 < m)
    (he : e ≤ Format.binary64.targetExponent (totalExponent m e))
    (hnormal : -1074 < e + (shiftOf m e : Int)) :
    (2 : ℚ) ^ (52 + (e + shiftOf m e : ℤ)) ≤ m * 2 ^ e := by
  have htarget := add_shiftOf_eq he
  have hlog : (2 : ℚ) ^ m.log2 ≤ m := by exact_mod_cast Nat.log2_self_le hm.ne'
  calc (2 : ℚ) ^ (52 + (e + shiftOf m e : ℤ)) = 2 ^ m.log2 * 2 ^ e := by
        rw [← zpow_natCast, ← zpow_add₀ two_ne_zero]
        congr 1
        omega
    _ ≤ m * 2 ^ e := mul_le_mul_of_nonneg_right hlog (by positivity)

/-- The rounded mantissa is nearest to the exact value among the floats. -/
theorem nearest_roundedTo {m : Nat} {e : Int} (hm : 0 < m)
    (he : e ≤ Format.binary64.targetExponent (totalExponent m e)) :
    Nearest (roundedTo m e * 2 ^ (e + shiftOf m e)) (m * 2 ^ e) := by
  have hlow := two_zpow_le_of_normal hm he
  obtain ⟨t, ht⟩ : ∃ t, t = e + (shiftOf m e : Int) := ⟨_, rfl⟩
  rw [← ht] at hlow ⊢
  have hexact : (m : ℚ) * 2 ^ e = m / 2 ^ shiftOf m e * 2 ^ t := by
    rw [ht, zpow_add₀ two_ne_zero, zpow_natCast]
    field_simp
  have hhalf : |(roundedTo m e : ℚ) - m / 2 ^ shiftOf m e| ≤ 1 / 2 :=
    ((standsFor_ofMantissaAndAccuracy m).shiftRight (shiftOf m e)).abs_roundedMantissa_sub_le
  have hmultiple (n : ℤ) :
      |(roundedTo m e : ℚ) * 2 ^ t - m * 2 ^ e| ≤ |(n : ℚ) * 2 ^ t - m * 2 ^ e| := by
    rw [hexact, ← sub_mul, ← sub_mul, abs_mul, abs_mul]
    exact mul_le_mul_of_nonneg_right (abs_sub_le_of_half hhalf n) (abs_nonneg _)
  intro q hq
  rcases hq.multiple_or_lt t with ⟨n, rfl⟩ | ⟨hnormal, hlt⟩
  · exact hmultiple n
  · -- Below the exact value there is a multiple of the unit that is above `q`.
    have hlow := hlow hnormal
    have hle := hmultiple (2 ^ 52)
    have hpow : (((2 ^ 52 : ℤ) : ℚ)) * 2 ^ t = 2 ^ (52 + t) := by
      rw [zpow_add₀ two_ne_zero]
      norm_num
    rw [hpow, abs_of_nonpos (by linarith : (2 : ℚ) ^ (52 + t) - m * 2 ^ e ≤ 0)] at hle
    rw [abs_of_nonpos (by linarith [le_abs_self q] : q - m * 2 ^ e ≤ 0)]
    linarith [le_abs_self q]

theorem representable_of_lt {m : ℕ} {e : ℤ} (hm : m < 2 ^ 53) (he : -1074 ≤ e) :
    Representable (m * 2 ^ e) :=
  ⟨m, e, by rw [Nat.abs_cast]; exact_mod_cast hm, he, by norm_cast⟩

theorem isShape_roundedTo {m : Nat} {e : Int} (hm : 0 < m)
    (he : e ≤ Format.binary64.targetExponent (totalExponent m e)) (hmax : e ≤ 971)
    (hv : (m : ℚ) * 2 ^ e < rangeEnd) (hr : roundedTo m e < 2 ^ 53) :
    IsShape (roundedTo m e) (e + shiftOf m e) := by
  have htarget := add_shiftOf_eq he
  refine ⟨hr, by omega, add_shiftOf_le hmax (hv.trans rangeEnd_lt), ?_⟩
  by_cases hsubnormal : e + (shiftOf m e : Int) = -1074
  · exact .inr hsubnormal
  · have hlow : ((2 ^ 52 : ℕ) : ℚ) * 2 ^ (e + (shiftOf m e : Int)) ≤ m * 2 ^ e := by
      refine le_of_eq_of_le ?_ (two_zpow_le_of_normal hm he (by omega))
      rw [zpow_add₀ two_ne_zero 52]
      congr 1
    have hge := (nearest_roundedTo hm he).ge (representable_of_lt (by norm_num) (by omega)) hlow
    have hle : ((2 ^ 52 : ℕ) : ℚ) ≤ roundedTo m e := le_of_mul_le_mul_right hge (by positivity)
    exact .inl (by exact_mod_cast hle)

/-- What is rounded up to a power of two stays below the greatest exponent. -/
theorem add_shiftOf_lt {m : Nat} {e : Int} (hmax : e ≤ 971)
    (hv : (m : ℚ) * 2 ^ e < rangeEnd) (hr : roundedTo m e = 2 ^ 53) :
    e + (shiftOf m e : Int) < 971 := by
  refine lt_of_le_of_ne (add_shiftOf_le hmax (hv.trans rangeEnd_lt)) fun htop => ?_
  have hhalf := (abs_le.mp
    ((standsFor_ofMantissaAndAccuracy m).shiftRight (shiftOf m e)).abs_roundedMantissa_sub_le).2
  have hhalf : ((roundedTo m e : ℕ) : ℚ) - m / 2 ^ shiftOf m e ≤ 1 / 2 := hhalf
  have hexact : (m : ℚ) * 2 ^ e = m / 2 ^ shiftOf m e * 2 ^ (971 : ℤ) := by
    rw [← htop, zpow_add₀ two_ne_zero, zpow_natCast]
    field_simp
  rw [hexact, natCast_rangeEnd, mul_lt_mul_iff_left₀ (by positivity)] at hv
  rw [hr] at hhalf
  push_cast at hhalf
  linarith

/-- Rounding gives the rounded mantissa, shifted by one place if it has one too many. -/
theorem shaped_roundWithAccuracy {m : Nat} {e : Int} (hm : 0 < m)
    (he : e ≤ Format.binary64.targetExponent (totalExponent m e)) (hmax : e ≤ 971)
    (hv : (m : ℚ) * 2 ^ e < rangeEnd) (s : Sign) :
    Shaped (roundWithAccuracy Format.binary64 s m e .exact) ∧
      value (roundWithAccuracy Format.binary64 s m e .exact) =
        (s.apply (roundedTo m e) : ℤ) * 2 ^ (e + shiftOf m e) := by
  rcases (roundedTo_le m e).lt_or_eq with hr | hr
  · have hshape := isShape_roundedTo hm he hmax hv hr
    rcases Nat.eq_zero_or_pos (roundedTo m e) with hzero | hpos
    · have hround : roundWithAccuracy Format.binary64 s m e .exact = .zero s := by
        refine dif_pos ((mantissa_shiftRight _ _).trans ?_)
        show roundedTo m e / _ = 0
        rw [hzero, Nat.zero_div]
      rw [hround, hzero]
      refine ⟨trivial, ?_⟩
      cases s <;> simp [value_zero, Sign.apply]
    · have hagain := shiftToTargetExponent_mul hshape hpos.ne' 0
      rw [Nat.pow_zero, Nat.mul_one, Nat.cast_zero, Int.sub_zero] at hagain
      rw [roundWithAccuracy_of_shifts hpos rfl hagain]
      exact ⟨hshape, rfl⟩
  · have hlt := add_shiftOf_lt hmax hv hr
    have htarget := add_shiftOf_eq he
    have hshape : IsShape (2 ^ 52) (e + shiftOf m e + 1) :=
      ⟨by norm_num, by omega, by omega, .inl le_rfl⟩
    have hagain := shiftToTargetExponent_mul hshape (by norm_num) 1
    rw [show 2 ^ 52 * 2 ^ 1 = roundedTo m e by rw [hr]; rfl, Nat.cast_one,
      Int.add_sub_cancel] at hagain
    rw [roundWithAccuracy_of_shifts (Nat.two_pow_pos 52) rfl hagain, hr]
    refine ⟨hshape, ?_⟩
    show ((s.apply (2 ^ 52 : ℕ) : ℤ) : ℚ) * 2 ^ (e + shiftOf m e + 1 : ℤ) = _
    rw [zpow_add_one₀ two_ne_zero]
    cases s <;> simp only [Sign.apply] <;> push_cast <;> ring

theorem nearest_apply {r x : ℕ} {t e : ℤ} (h : Nearest (r * 2 ^ t) (x * 2 ^ e)) (s : Sign) :
    Nearest ((s.apply r : ℤ) * 2 ^ t) ((s.apply x : ℤ) * 2 ^ e) := by
  cases s with
  | positive => exact_mod_cast h
  | negative =>
    have hneg := h.neg
    rw [← neg_mul, ← neg_mul] at hneg
    exact_mod_cast hneg

theorem nearest_round {m : Nat} {e : Int} (hm : 0 < m) (hmax : e ≤ 971)
    (hv : (m : ℚ) * 2 ^ e < rangeEnd) (s : Sign) :
    Shaped (UnpackedFloat.round Format.binary64 s m e) ∧
      Nearest (value (UnpackedFloat.round Format.binary64 s m e)) ((s.apply m : ℤ) * 2 ^ e) := by
  obtain ⟨k, hk⟩ : ∃ k : ℕ,
      k = (e - Format.binary64.targetExponent (totalExponent m e)).toNat := ⟨_, rfl⟩
  have hround : UnpackedFloat.round Format.binary64 s m e =
      roundWithAccuracy Format.binary64 s (m * 2 ^ k) (e - k) .exact := by
    rw [hk, ← Nat.shiftLeft_eq]
    rfl
  have hpos : 0 < m * 2 ^ k := Nat.mul_pos hm (Nat.two_pow_pos k)
  have hsame : (((m * 2 ^ k : ℕ) : ℚ)) * 2 ^ (e - k : ℤ) = m * 2 ^ e := by
    rw [zpow_sub₀ two_ne_zero, zpow_natCast]
    push_cast
    field_simp
  have htarget : e - k ≤ Format.binary64.targetExponent (totalExponent (m * 2 ^ k) (e - k)) := by
    rw [targetExponent_eq] at hk ⊢
    rw [log2_mul_two_pow hm.ne']
    omega
  obtain ⟨hshaped, hvalue⟩ :=
    shaped_roundWithAccuracy hpos htarget (by omega) (hsame.trans_lt hv) s
  have hnearest := nearest_apply (nearest_roundedTo hpos htarget) s
  rw [hround, hvalue]
  refine ⟨hshaped, ?_⟩
  convert hnearest using 1
  cases s <;> simp only [Sign.apply] <;> push_cast at hsame ⊢ <;> linarith

theorem nearest_normalize {d : Int} {e : Int} (hmax : e ≤ 971)
    (hv : |(d : ℚ) * 2 ^ e| < rangeEnd) :
    Shaped (UnpackedFloat.normalize Format.binary64 d e .positive) ∧
      Nearest (value (UnpackedFloat.normalize Format.binary64 d e .positive)) (d * 2 ^ e) := by
  have hpow : (0 : ℚ) < 2 ^ e := zpow_pos two_pos e
  rw [abs_mul, abs_of_pos hpow] at hv
  unfold UnpackedFloat.normalize
  rcases lt_trichotomy d 0 with hd | rfl | hd
  · rw [Int.compare_eq_lt.mpr hd]
    have hnat : ((-d).toNat : ℤ) = -d := Int.toNat_of_nonneg (by omega)
    have habs : (((-d).toNat : ℕ) : ℚ) = |(d : ℚ)| := by
      rw [abs_of_neg (by exact_mod_cast hd)]
      exact_mod_cast hnat
    have h := nearest_round (m := (-d).toNat) (e := e) (by omega) hmax (by rwa [habs]) .negative
    rwa [Sign.apply, hnat, neg_neg] at h
  · rw [Int.cast_zero, zero_mul]
    exact ⟨trivial, nearest_self 0⟩
  · rw [Int.compare_eq_gt.mpr hd]
    have hnat : (d.toNat : ℤ) = d := Int.toNat_of_nonneg hd.le
    have habs : ((d.toNat : ℕ) : ℚ) = |(d : ℚ)| := by
      rw [abs_of_pos (by exact_mod_cast hd)]
      exact_mod_cast hnat
    have h := nearest_round (m := d.toNat) (e := e) (by omega) hmax (by rwa [habs]) .positive
    rwa [Sign.apply, hnat] at h

/-! ## Sums and differences -/

theorem apply_shiftLeft (s : Sign) (m : Nat) {e t : Int} (h : t ≤ e) :
    ((s.apply (m <<< (e - t).toNat : ℕ) : ℤ) : ℚ) * 2 ^ t = (s.apply m : ℤ) * 2 ^ e := by
  rw [Nat.shiftLeft_eq, two_zpow_eq_mul h]
  cases s <;> simp only [Sign.apply] <;> push_cast <;> ring

theorem nearest_add_unpacked {a b : UnpackedFloat} (ha : Shaped a) (hb : Shaped b)
    (h : |value a + value b| < rangeEnd) :
    Shaped (UnpackedFloat.add Format.binary64 a b) ∧
      Nearest (value (UnpackedFloat.add Format.binary64 a b)) (value a + value b) := by
  cases a with
  | notANumber => cases ha
  | infinity s => cases ha
  | zero s =>
    cases b with
    | notANumber => cases hb
    | infinity u => cases hb
    | zero u => cases s <;> cases u <;> exact ⟨trivial, (add_zero (0 : ℚ)).symm ▸ nearest_self 0⟩
    | finite u n f hn => exact ⟨hb, (zero_add (value (.finite u n f hn))).symm ▸ nearest_self _⟩
  | finite s m e hm =>
    cases b with
    | notANumber => cases hb
    | infinity u => cases hb
    | zero u => exact ⟨ha, (add_zero (value (.finite s m e hm))).symm ▸ nearest_self _⟩
    | finite u n f hn =>
      have ha : IsShape m e := ha
      have hsum : (value (.finite s m e hm) + value (.finite u n f hn) : ℚ) =
          ((s.apply (m <<< (e - min e f).toNat : ℕ) +
            u.apply (n <<< (f - min e f).toNat : ℕ) : ℤ)) * 2 ^ min e f := by
        rw [Int.cast_add, add_mul, apply_shiftLeft s m (min_le_left e f),
          apply_shiftLeft u n (min_le_right e f)]
        rfl
      rw [hsum] at h ⊢
      exact nearest_normalize ((min_le_left e f).trans ha.exponent_le) h

theorem value_le_maxFinite {u : UnpackedFloat} (h : Shaped u) : value u ≤ maxFinite := by
  have hpos : 0 ≤ maxFinite := by unfold maxFinite; positivity
  cases u with
  | notANumber => cases h
  | infinity s => cases h
  | zero s => exact hpos
  | finite s m e hm =>
    have h : IsShape m e := h
    have happly : ((s.apply m : ℤ) : ℚ) ≤ m := by
      cases s <;> simp only [Sign.apply] <;> push_cast <;> linarith [Nat.cast_nonneg (α := ℚ) m]
    have hmantissa : (m : ℚ) ≤ 2 ^ 53 - 1 := by
      have hle : m + 1 ≤ 2 ^ 53 := h.mantissa_lt
      have hle : (m : ℚ) + 1 ≤ 2 ^ 53 := by exact_mod_cast hle
      linarith
    have hpow : (2 : ℚ) ^ e ≤ 2 ^ (971 : ℤ) := zpow_le_zpow_right₀ one_le_two h.exponent_le
    calc ((s.apply m : ℤ) : ℚ) * 2 ^ e ≤ m * 2 ^ e :=
          mul_le_mul_of_nonneg_right happly (by positivity)
      _ ≤ maxFinite := mul_le_mul hmantissa hpow (by positivity) (by norm_num)

theorem value_finite_ne_zero {s : Sign} {m : Nat} {e : Int} (hpos : 0 < m) :
    value (.finite s m e hpos) ≠ 0 := by
  have hm : (m : ℚ) ≠ 0 := by exact_mod_cast hpos.ne'
  have hpow : (2 : ℚ) ^ e ≠ 0 := zpow_ne_zero e two_ne_zero
  cases s with
  | positive =>
    rw [value_positive]
    exact mul_ne_zero hm hpow
  | negative =>
    rw [value_negative]
    exact neg_ne_zero.mpr (mul_ne_zero hm hpow)

/-- A difference of numbers that are not negative cannot overflow. -/
theorem nearest_sub_unpacked {a b : UnpackedFloat} (ha : Shaped a) (hb : Shaped b)
    (hpa : 0 ≤ value a) (hpb : 0 ≤ value b) :
    Shaped (UnpackedFloat.sub Format.binary64 a b) ∧
      Nearest (value (UnpackedFloat.sub Format.binary64 a b)) (value a - value b) := by
  cases a with
  | notANumber => cases ha
  | infinity s => cases ha
  | zero s =>
    cases b with
    | notANumber => cases hb
    | infinity u => cases hb
    | zero u => cases s <;> cases u <;> exact ⟨trivial, (sub_zero (0 : ℚ)).symm ▸ nearest_self 0⟩
    | finite u n f hn =>
      have hneg : value (.finite (-u) n f hn) = value (.zero s) - value (.finite u n f hn) := by
        rw [value_zero, zero_sub]
        cases u with
        | negative =>
          show ((n : ℤ) : ℚ) * 2 ^ f = -((-(n : ℤ) : ℤ) * 2 ^ f)
          push_cast
          ring
        | positive =>
          show ((-(n : ℤ) : ℤ) : ℚ) * 2 ^ f = -((n : ℤ) * 2 ^ f)
          push_cast
          ring
      exact ⟨hb, hneg ▸ nearest_self _⟩
  | finite s m e hm =>
    cases b with
    | notANumber => cases hb
    | infinity u => cases hb
    | zero u => exact ⟨ha, (sub_zero (value (.finite s m e hm))).symm ▸ nearest_self _⟩
    | finite u n f hn =>
      have hdifference : (value (.finite s m e hm) - value (.finite u n f hn) : ℚ) =
          ((s.apply (m <<< (e - min e f).toNat : ℕ) -
            u.apply (n <<< (f - min e f).toNat : ℕ) : ℤ)) * 2 ^ min e f := by
        rw [Int.cast_sub, sub_mul, apply_shiftLeft s m (min_le_left e f),
          apply_shiftLeft u n (min_le_right e f)]
        rfl
      have hlt : |value (.finite s m e hm) - value (.finite u n f hn)| < maxFinite := by
        have hpa := lt_of_le_of_ne hpa (value_finite_ne_zero hm).symm
        have hpb := lt_of_le_of_ne hpb (value_finite_ne_zero hn).symm
        have hla := value_le_maxFinite ha
        have hlb := value_le_maxFinite hb
        rw [abs_lt]
        constructor <;> linarith
      rw [hdifference] at hlt ⊢
      exact nearest_normalize ((min_le_left e f).trans (IsShape.exponent_le ha))
        (hlt.trans maxFinite_lt_rangeEnd)

theorem isFinite_of_shaped {u : UnpackedFloat} (h : Shaped u) : u.isFinite := by
  cases u with
  | notANumber => cases h
  | infinity s => cases h
  | zero s => rfl
  | finite s m e hm => rfl

/-- The float nearest to a whole number in range. -/
def nearestFloat (n : Nat) : Float := .ofModel (.pack (.round .binary64 .positive n 0))

theorem nearestFloat_spec {n : ℕ} (hpos : 0 < n) (hn : n < rangeEnd) :
    (nearestFloat n).isFinite ∧ Nearest (valueOf (nearestFloat n)) n := by
  have hlt : (n : ℚ) * 2 ^ (0 : ℤ) < rangeEnd := by
    rw [zpow_zero, mul_one]
    exact_mod_cast hn
  obtain ⟨hshaped, hnearest⟩ := nearest_round hpos (by decide) hlt .positive
  have hunpack : (nearestFloat n).toModel.unpack = .round .binary64 .positive n 0 :=
    unpack_pack hshaped
  have hexact : ((Sign.positive.apply n : ℤ) : ℚ) * 2 ^ (0 : ℤ) = n := by
    rw [zpow_zero, mul_one]
    rfl
  unfold valueOf Float.isFinite Float.Model.isFinite
  rw [hunpack]
  exact ⟨isFinite_of_shaped hshaped, hexact ▸ hnearest⟩

/-- A sum of finite floats is nearest to the exact value, unless that is out of range. -/
theorem nearest_add {f g : Float} (hf : f.isFinite) (hg : g.isFinite)
    (h : |valueOf f + valueOf g| < rangeEnd) :
    (f + g).isFinite ∧ Nearest (valueOf (f + g)) (valueOf f + valueOf g) := by
  obtain ⟨hshaped, hnearest⟩ := nearest_add_unpacked (shaped_unpack hf) (shaped_unpack hg) h
  have hunpack : (f + g).toModel.unpack =
      UnpackedFloat.add Format.binary64 f.toModel.unpack g.toModel.unpack := unpack_pack hshaped
  unfold valueOf Float.isFinite Float.Model.isFinite
  rw [hunpack]
  exact ⟨isFinite_of_shaped hshaped, hnearest⟩

/-- A difference of finite floats that are not negative is nearest to the exact value. -/
theorem nearest_sub {f g : Float} (hf : f.isFinite) (hg : g.isFinite) (hpf : 0 ≤ valueOf f)
    (hpg : 0 ≤ valueOf g) :
    (f - g).isFinite ∧ Nearest (valueOf (f - g)) (valueOf f - valueOf g) := by
  obtain ⟨hshaped, hnearest⟩ :=
    nearest_sub_unpacked (shaped_unpack hf) (shaped_unpack hg) hpf hpg
  have hunpack : (f - g).toModel.unpack =
      UnpackedFloat.sub Format.binary64 f.toModel.unpack g.toModel.unpack := unpack_pack hshaped
  unfold valueOf Float.isFinite Float.Model.isFinite
  rw [hunpack]
  exact ⟨isFinite_of_shaped hshaped, hnearest⟩

theorem representable_valueOf {f : Float} (h : f.isFinite) : Representable (valueOf f) := by
  have hshaped := shaped_unpack (v := f.toModel) h
  unfold valueOf
  cases hu : f.toModel.unpack with
  | notANumber => rw [hu] at hshaped; cases hshaped
  | infinity s => rw [hu] at hshaped; cases hshaped
  | zero s => exact representable_zero
  | finite s m e hm =>
    rw [hu] at hshaped
    have hshape : IsShape m e := hshaped
    refine ⟨s.apply m, e, ?_, hshape.exponent_ge, rfl⟩
    have hlt : (m : ℤ) < 2 ^ 53 := by exact_mod_cast hshape.mantissa_lt
    rw [abs_lt]
    cases s <;> simp only [Sign.apply] <;> omega

/-! ## Order -/

theorem mul_zpow_lt_of_exponent_lt {m n : ℕ} {e f : ℤ} (hm : IsShape m e) (hn : IsShape n f)
    (h : e < f) : (m : ℚ) * 2 ^ e < n * 2 ^ f := by
  have hnormal : 2 ^ 52 ≤ n := hn.normal.resolve_right (by have := hm.exponent_ge; omega)
  have hlow : (2 : ℚ) ^ 52 ≤ n := by exact_mod_cast hnormal
  have hhigh : (m : ℚ) < 2 ^ 53 := by exact_mod_cast hm.mantissa_lt
  calc (m : ℚ) * 2 ^ e < 2 ^ 53 * 2 ^ e := mul_lt_mul_of_pos_right hhigh (by positivity)
    _ = 2 ^ 52 * 2 ^ (e + 1) := by rw [zpow_add_one₀ two_ne_zero]; ring
    _ ≤ n * 2 ^ f :=
      mul_le_mul hlow (zpow_le_zpow_right₀ one_le_two (by omega)) (by positivity) (by positivity)

theorem compare_shape {m n : ℕ} {e f : ℤ} (hm : IsShape m e) (hn : IsShape n f) :
    (compare e f).then (compare m n) = compare ((m : ℚ) * 2 ^ e) (n * 2 ^ f) := by
  rcases lt_trichotomy e f with h | rfl | h
  · rw [compare_lt_iff_lt.mpr h, compare_lt_iff_lt.mpr (mul_zpow_lt_of_exponent_lt hm hn h)]
    rfl
  · have hpow : (0 : ℚ) < 2 ^ e := zpow_pos two_pos e
    rw [compare_eq_iff_eq.mpr rfl]
    show compare m n = _
    rcases lt_trichotomy m n with h | rfl | h
    · rw [compare_lt_iff_lt.mpr h, compare_lt_iff_lt.mpr
        (mul_lt_mul_of_pos_right (Nat.cast_lt.mpr h) hpow)]
    · rw [compare_eq_iff_eq.mpr rfl, compare_eq_iff_eq.mpr rfl]
    · rw [compare_gt_iff_gt.mpr h, compare_gt_iff_gt.mpr
        (mul_lt_mul_of_pos_right (Nat.cast_lt.mpr h) hpow)]
  · rw [compare_gt_iff_gt.mpr h, compare_gt_iff_gt.mpr (mul_zpow_lt_of_exponent_lt hn hm h)]
    rfl

theorem compare_neg (x y : ℚ) : compare (-x) (-y) = (compare x y).swap := by
  rcases lt_trichotomy x y with h | rfl | h
  · rw [compare_lt_iff_lt.mpr h, compare_gt_iff_gt.mpr (neg_lt_neg h)]
    rfl
  · rw [compare_eq_iff_eq.mpr rfl, compare_eq_iff_eq.mpr rfl]
    rfl
  · rw [compare_gt_iff_gt.mpr h, compare_lt_iff_lt.mpr (neg_lt_neg h)]
    rfl

theorem compare_eq_compare_value {a b : UnpackedFloat} (ha : Shaped a) (hb : Shaped b) :
    a.compare b = some (compare (value a) (value b)) := by
  have hpos {m : ℕ} {e : ℤ} (hm : 0 < m) : (0 : ℚ) < m * 2 ^ e :=
    mul_pos (by exact_mod_cast hm) (by positivity)
  cases a with
  | notANumber => cases ha
  | infinity s => cases ha
  | zero s =>
    cases b with
    | notANumber => cases hb
    | infinity u => cases hb
    | zero u => exact congrArg some (compare_eq_iff_eq.mpr rfl).symm
    | finite u n f hn =>
      cases u with
      | positive =>
        rw [value_zero, value_positive, compare_lt_iff_lt.mpr (hpos hn)]
        rfl
      | negative =>
        rw [value_zero, value_negative, compare_gt_iff_gt.mpr (neg_neg_of_pos (hpos hn))]
        rfl
  | finite s m e hm =>
    cases b with
    | notANumber => cases hb
    | infinity u => cases hb
    | zero u =>
      cases s with
      | positive =>
        rw [value_zero, value_positive, compare_gt_iff_gt.mpr (hpos hm)]
        rfl
      | negative =>
        rw [value_zero, value_negative, compare_lt_iff_lt.mpr (neg_neg_of_pos (hpos hm))]
        rfl
    | finite u n f hn =>
      have ha : IsShape m e := ha
      have hb : IsShape n f := hb
      cases s with
      | positive =>
        cases u with
        | positive =>
          rw [value_positive, value_positive, ← compare_shape ha hb]
          rfl
        | negative =>
          rw [value_positive, value_negative,
            compare_gt_iff_gt.mpr ((neg_neg_of_pos (hpos hn)).trans (hpos hm))]
          rfl
      | negative =>
        cases u with
        | positive =>
          rw [value_negative, value_positive,
            compare_lt_iff_lt.mpr ((neg_neg_of_pos (hpos hm)).trans (hpos hn))]
          rfl
        | negative =>
          rw [value_negative, value_negative, compare_neg, ← compare_shape ha hb]
          rfl

theorem float_le_iff {f g : Float} (hf : f.isFinite) (hg : g.isFinite) :
    f ≤ g ↔ valueOf f ≤ valueOf g := by
  rw [float_le_iff_compare, compare_eq_compare_value (shaped_unpack hf) (shaped_unpack hg),
    Option.any_some, Ordering.isLE_iff_ne_gt]
  exact compare_le_iff_le

theorem float_lt_iff {f g : Float} (hf : f.isFinite) (hg : g.isFinite) :
    f < g ↔ valueOf f < valueOf g := by
  rw [float_lt_iff_compare, compare_eq_compare_value (shaped_unpack hf) (shaped_unpack hg),
    Option.some_inj]
  exact compare_lt_iff_lt

/-! ## Floats that are not finite -/

theorem valueOf_of_not_isFinite {f : Float} (h : ¬ f.isFinite) : valueOf f = 0 := by
  unfold valueOf
  cases hu : f.toModel.unpack with
  | finite s m e hm => exact absurd (congrArg (·.isFinite) hu) h
  | _ => rfl

theorem unpack_pack_of_not_isFinite {f : Float} (hf : ¬ f.isFinite) :
    (Float.Model.pack f.toModel.unpack).unpack = f.toModel.unpack := by
  cases hu : f.toModel.unpack with
  | zero s => exact absurd (congrArg (·.isFinite) hu) hf
  | finite s m e hm => exact absurd (congrArg (·.isFinite) hu) hf
  | notANumber => rfl
  | infinity s => cases s <;> rfl

theorem unpack_sub_of_not_isFinite {f g : Float} (hf : ¬ f.isFinite) (hg : g.isFinite) :
    (f - g).toModel.unpack = f.toModel.unpack := by
  have hshaped := shaped_unpack (v := g.toModel) hg
  show (Float.Model.pack (.sub .binary64 f.toModel.unpack g.toModel.unpack)).unpack = _
  have hsub : UnpackedFloat.sub .binary64 f.toModel.unpack g.toModel.unpack = f.toModel.unpack := by
    cases hu : f.toModel.unpack with
    | zero s => exact absurd (congrArg (·.isFinite) hu) hf
    | finite s m e hm => exact absurd (congrArg (·.isFinite) hu) hf
    | notANumber => cases g.toModel.unpack <;> rfl
    | infinity s =>
      cases hn : g.toModel.unpack with
      | notANumber => rw [hn] at hshaped; cases hshaped
      | infinity s => rw [hn] at hshaped; cases hshaped
      | zero s => rfl
      | finite s m e hm => rfl
  rw [hsub, unpack_pack_of_not_isFinite hf]

theorem unpack_add_of_not_isFinite {f g : Float} (hf : f.isFinite) (hg : ¬ g.isFinite) :
    (f + g).toModel.unpack = g.toModel.unpack := by
  have hshaped := shaped_unpack (v := f.toModel) hf
  show (Float.Model.pack (.add .binary64 f.toModel.unpack g.toModel.unpack)).unpack = _
  have hadd : UnpackedFloat.add .binary64 f.toModel.unpack g.toModel.unpack = g.toModel.unpack := by
    cases hu : g.toModel.unpack with
    | zero s => exact absurd (congrArg (·.isFinite) hu) hg
    | finite s m e hm => exact absurd (congrArg (·.isFinite) hu) hg
    | notANumber => cases f.toModel.unpack <;> rfl
    | infinity s =>
      cases hn : f.toModel.unpack with
      | notANumber => rw [hn] at hshaped; cases hshaped
      | infinity s => rw [hn] at hshaped; cases hshaped
      | zero s => rfl
      | finite s m e hm => rfl
  rw [hadd, unpack_pack_of_not_isFinite hg]

/-- Infinity, or what is no number, is not at most a finite float. -/
theorem not_float_le_of_not_isFinite {f g : Float} (hf : ¬ f.isFinite) (hpos : ¬ f ≤ 0.0)
    (hg : g.isFinite) : ¬ f ≤ g := by
  have hshaped := shaped_unpack (v := g.toModel) hg
  rw [float_le_iff_compare] at hpos ⊢
  cases hu : f.toModel.unpack with
  | zero s => exact absurd (congrArg (·.isFinite) hu) hf
  | finite s m e hm => exact absurd (congrArg (·.isFinite) hu) hf
  | notANumber => cases g.toModel.unpack <;> exact Bool.false_ne_true
  | infinity s =>
    cases s with
    | negative => exact absurd (by rw [hu]; rfl) hpos
    | positive =>
      cases hn : g.toModel.unpack with
      | notANumber => rw [hn] at hshaped; cases hshaped
      | infinity s => rw [hn] at hshaped; cases hshaped
      | zero s => exact Bool.false_ne_true
      | finite s m e hm => exact Bool.false_ne_true

end Breadboard
