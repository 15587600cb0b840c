import Breadboard.Decimal.Shortest
import Breadboard.Proofs.Decimal.Rounding

/-!
# Rounding to significant digits

The highest digit of a float is where its magnitude says, so rounding a float to twelve digits gives
a decimal that is still below the greatest float.
-/

namespace Breadboard

open Float.Model Float.Model.UnpackedFloat

namespace Binary

/-- The magnitude of a float as an exact number. -/
def magnitude (b : Binary) : ℚ := b.mantissa * 2 ^ b.exponent

/-! ## The fields of a float -/

theorem exponentField_lt {f : Float} (h : f.isFinite) :
    f.toBits.toNat / hidden % 2048 < 2047 := by
  have hfinite : (UnpackedFloat.unpack Format.binary64 f.toModel.toBits.toBitVec).isFinite := h
  have hfield : (@unpackExponent Format.binary64 f.toModel.toBits.toBitVec).toNat =
      f.toBits.toNat / hidden % 2048 := by
    rw [unpackExponent, BitVec.toNat_cast, BitVec.extractLsb_toNat, Nat.shiftRight_eq_div_pow]
    rfl
  have hne : @unpackExponent Format.binary64 f.toModel.toBits.toBitVec ≠ -1#_ := by
    intro hlast
    rw [unpack_eq_ofFields, hlast, not_isFinite_ofFields] at hfinite
    cases hfinite
  have hnat : f.toBits.toNat / hidden % 2048 ≠ 2047 := by
    rw [← hfield]
    exact fun heq => hne (BitVec.eq_of_toNat_eq heq)
  omega

theorem magnitude_ofFloat_le {f : Float} (h : f.isFinite) :
    (ofFloat f).magnitude ≤ maxFinite := by
  have hfield := exponentField_lt h
  have hfraction : f.toBits.toNat % hidden < 2 ^ 52 := Nat.mod_lt _ (by decide)
  obtain ⟨hmantissa, hexponent⟩ :
      (ofFloat f).mantissa ≤ 2 ^ 53 - 1 ∧ (ofFloat f).exponent ≤ 971 := by
    have hhidden : hidden = 2 ^ 52 := rfl
    unfold ofFloat ofBits
    simp only
    split_ifs
    · show f.toBits.toNat % hidden ≤ 2 ^ 53 - 1 ∧ (-1074 : Int) ≤ 971
      omega
    · show hidden + f.toBits.toNat % hidden ≤ 2 ^ 53 - 1 ∧
        ((f.toBits.toNat / hidden % 2048 : Nat) : Int) - 1075 ≤ 971
      omega
  have hmantissa : ((ofFloat f).mantissa : ℚ) ≤ (2 ^ 53 - 1 : Nat) := by exact_mod_cast hmantissa
  calc (ofFloat f).magnitude ≤ (2 ^ 53 - 1 : Nat) * 2 ^ (971 : Int) :=
        mul_le_mul hmantissa (zpow_le_zpow_right₀ one_le_two hexponent) (by positivity)
          (by positivity)
    _ = maxFinite := by
      unfold maxFinite
      norm_num

/-! ## Digits -/

theorem quotient_div (n : Nat) (e unit : Int) :
    ((quotient n e unit).1 : ℚ) / (quotient n e unit).2 = n * 2 ^ e / 10 ^ unit := by
  have hsplit (a : ℚ) (ha : a ≠ 0) (k : Int) : a ^ k = a ^ k.toNat / a ^ (-k).toNat := by
    rw [← zpow_natCast, ← zpow_natCast, ← zpow_sub₀ ha]
    congr 1
    omega
  rw [hsplit 2 two_ne_zero e, hsplit 10 (by norm_num) unit]
  simp only [quotient, Nat.pow_eq]
  push_cast
  field_simp

/-- The highest digit of a number that is not zero has this exponent. -/
theorem topExponent_spec {b : Binary} (h : b.mantissa ≠ 0) :
    (10 : ℚ) ^ b.topExponent ≤ b.magnitude ∧ b.magnitude < 10 ^ (b.topExponent + 1) := by
  have hratio := quotient_div b.mantissa b.exponent 0
  have hden := quotient_snd_pos b.mantissa b.exponent 0
  have htop : b.topExponent =
      if (quotient b.mantissa b.exponent 0).2 ≤ (quotient b.mantissa b.exponent 0).1 then
        (Decimal.width ((quotient b.mantissa b.exponent 0).1 /
          (quotient b.mantissa b.exponent 0).2) : Int) - 1
      else -(Decimal.width (((quotient b.mantissa b.exponent 0).2 - 1) /
        (quotient b.mantissa b.exponent 0).1) : Int) := rfl
  rw [zpow_zero, div_one] at hratio
  rw [htop, magnitude, ← hratio]
  generalize hnum : (quotient b.mantissa b.exponent 0).1 = num
  generalize (quotient b.mantissa b.exponent 0).2 = den at hden
  have hpos : 0 < num := by
    rw [← hnum]
    exact Nat.mul_pos (Nat.mul_pos (Nat.pos_of_ne_zero h) (Nat.pow_pos (by decide)))
      (Nat.pow_pos (by decide))
  have hden' : (0 : ℚ) < den := by exact_mod_cast hden
  split
  · next hle =>
    have hdigits := Decimal.pow_width_le (Nat.div_pos hle hden).ne'
    have hwidth : 0 < Decimal.width (num / den) := Nat.length_toDigits_pos
    have hlow : 10 ^ (Decimal.width (num / den) - 1) * den ≤ num :=
      (Nat.mul_le_mul_right den hdigits).trans (Nat.div_mul_le_self num den)
    have hhigh : num < 10 ^ Decimal.width (num / den) * den :=
      (Nat.div_lt_iff_lt_mul hden).mp (Decimal.lt_pow_width _)
    rw [le_div_iff₀ hden', div_lt_iff₀ hden', Int.sub_add_cancel, zpow_natCast,
      show (Decimal.width (num / den) : Int) - 1 = (Decimal.width (num / den) - 1 : Nat) by omega,
      zpow_natCast]
    exact ⟨by exact_mod_cast hlow, by exact_mod_cast hhigh⟩
  · next hlt =>
    have hne : (den - 1) / num ≠ 0 := (Nat.div_pos (by omega) hpos).ne'
    have hwidth : 0 < Decimal.width ((den - 1) / num) := Nat.length_toDigits_pos
    have hlow : den ≤ num * 10 ^ Decimal.width ((den - 1) / num) := by
      have := (Nat.div_lt_iff_lt_mul hpos).mp (Decimal.lt_pow_width ((den - 1) / num))
      rw [Nat.mul_comm] at this
      omega
    have hhigh : num * 10 ^ (Decimal.width ((den - 1) / num) - 1) < den := by
      have := (Nat.mul_le_mul_right num (Decimal.pow_width_le hne)).trans
        (Nat.div_mul_le_self (den - 1) num)
      rw [Nat.mul_comm] at this
      omega
    have hlow : (den : ℚ) ≤ num * 10 ^ Decimal.width ((den - 1) / num) := by exact_mod_cast hlow
    have hhigh : (num : ℚ) * 10 ^ (Decimal.width ((den - 1) / num) - 1) < den := by
      exact_mod_cast hhigh
    rw [show -(Decimal.width ((den - 1) / num) : Int) + 1 =
        -((Decimal.width ((den - 1) / num) - 1 : Nat) : Int) by omega,
      zpow_neg, zpow_neg, zpow_natCast, zpow_natCast, inv_eq_one_div, inv_eq_one_div,
      div_le_div_iff₀ (by positivity) hden', div_lt_div_iff₀ hden' (by positivity), one_mul]
    exact ⟨hlow, hhigh⟩

theorem abs_roundDiv_sub_le (num : Nat) {den : Nat} (h : 0 < den) :
    |(roundDiv num den : ℚ) - num / den| ≤ 1 / 2 := by
  have hden : (0 : ℚ) < den := by exact_mod_cast h
  have hfraction : (num : ℚ) / den = (num / den : Nat) + (num % den : Nat) / den := by
    have hsum : (den : ℚ) * (num / den : Nat) + (num % den : Nat) = num := by
      exact_mod_cast Nat.div_add_mod num den
    field_simp
    linarith
  have hle : ((num % den : Nat) : ℚ) / den ≤ 1 := by
    rw [div_le_one hden]
    exact_mod_cast (Nat.mod_lt num h).le
  have hpos : 0 ≤ ((num % den : Nat) : ℚ) / den := by positivity
  rw [hfraction, abs_le]
  unfold roundDiv
  simp only
  split_ifs with hdown hup
  · have hhalf : ((num % den : Nat) : ℚ) / den < 1 / 2 := by
      rw [div_lt_div_iff₀ hden two_pos]
      exact_mod_cast (by omega : num % den * 2 < 1 * den)
    constructor <;> linarith
  · have hhalf : 1 / 2 < ((num % den : Nat) : ℚ) / den := by
      rw [div_lt_div_iff₀ two_pos hden]
      exact_mod_cast (by omega : 1 * den < num % den * 2)
    push_cast
    constructor <;> linarith
  · have hhalf : ((num % den : Nat) : ℚ) / den = 1 / 2 := by
      rw [div_eq_div_iff hden.ne' two_ne_zero]
      exact_mod_cast (by omega : num % den * 2 = 1 * den)
    rw [hhalf]
    rcases Nat.mod_two_eq_zero_or_one (num / den) with heven | hodd
    · rw [heven]
      norm_num
    · rw [hodd]
      norm_num

end Binary

namespace Decimal

open Binary

/-- Rounding to a multiple of a unit is off by half a unit at most. -/
theorem abs_roundDiv_quotient_sub_le (b : Binary) (unit : Int) :
    |(roundDiv (quotient b.mantissa b.exponent unit).1
        (quotient b.mantissa b.exponent unit).2 : ℚ) - b.magnitude / 10 ^ unit| ≤ 1 / 2 := by
  have hround := abs_roundDiv_sub_le (quotient b.mantissa b.exponent unit).1
    (quotient_snd_pos b.mantissa b.exponent unit)
  rwa [quotient_div] at hround

theorem roundDiv_quotient_le {b : Binary} {unit : Int} {n : Nat}
    (h : b.magnitude / 10 ^ unit < n + 1 / 2) :
    roundDiv (quotient b.mantissa b.exponent unit).1
      (quotient b.mantissa b.exponent unit).2 ≤ n := by
  have hround := (abs_le.mp (abs_roundDiv_quotient_sub_le b unit)).2
  have hlt : (roundDiv (quotient b.mantissa b.exponent unit).1
      (quotient b.mantissa b.exponent unit).2 : ℚ) < (n + 1 : Nat) := by
    push_cast
    linarith
  exact Nat.le_of_lt_succ (by exact_mod_cast hlt)

theorem negative_significant (f : Float) (digits : Nat) :
    (significant f digits).negative = (ofFloat f).negative := by
  unfold significant
  simp only
  split_ifs <;> rfl

/-- A float rounded to some digits is off by half a unit of the last of them at most. -/
theorem abs_magnitude_significant_sub_le (f : Float) (digits : Nat) :
    |(significant f digits).magnitude - (ofFloat f).magnitude| ≤
      (ofFloat f).magnitude / (2 * 10 ^ (digits - 1 : Int)) := by
  unfold significant
  simp only
  split_ifs with hzero
  · simp [Decimal.magnitude, Binary.magnitude, hzero]
  · have hlow := (topExponent_spec hzero).1
    have hround := abs_roundDiv_quotient_sub_le (ofFloat f)
      ((ofFloat f).topExponent - (digits - 1 : Int))
    have hunit : (10 : ℚ) ^ ((ofFloat f).topExponent - (digits - 1 : Int)) ≤
        (ofFloat f).magnitude / 10 ^ (digits - 1 : Int) := by
      rw [zpow_sub₀ (by norm_num)]
      exact div_le_div_of_nonneg_right hlow (by positivity)
    generalize (ofFloat f).topExponent - (digits - 1 : Int) = unit at hround hunit
    have hpos : (0 : ℚ) < 10 ^ unit := by positivity
    calc _ = |_ - (ofFloat f).magnitude / 10 ^ unit| * 10 ^ unit := by
          rw [← abs_of_pos hpos, ← abs_mul, abs_of_pos hpos, sub_mul, div_mul_cancel₀ _ hpos.ne']
          rfl
      _ ≤ 1 / 2 * ((ofFloat f).magnitude / 10 ^ (digits - 1 : Int)) :=
        mul_le_mul hround hunit hpos.le (by norm_num)
      _ = _ := by
        field_simp

theorem natCast_maxFinite : (((2 ^ 53 - 1) * 2 ^ 971 : Nat) : ℚ) = maxFinite := by
  have hmantissa : ((2 ^ 53 - 1 : Nat) : ℚ) = 2 ^ 53 - 1 := by norm_num
  rw [Nat.cast_mul, hmantissa, Nat.cast_pow]
  rfl

/-- The greatest float has the digits 179769313486 and less than a half behind them. -/
theorem maxFinite_div_lt : maxFinite / 10 ^ (297 : Int) < (179769313486 : Nat) + 1 / 2 := by
  have hnat : 2 * ((2 ^ 53 - 1) * 2 ^ 971) < (2 * 179769313486 + 1) * 10 ^ 297 := by decide +kernel
  have hrat := (Nat.cast_lt (α := ℚ)).mpr hnat
  rw [Nat.cast_mul, natCast_maxFinite, Nat.cast_mul, Nat.cast_pow] at hrat
  rw [div_lt_iff₀ (by positivity), zpow_ofNat]
  push_cast at hrat ⊢
  generalize (10 : ℚ) ^ 297 = power at hrat ⊢
  linarith

/-- Rounding a finite float to twelve digits stays below the greatest float. -/
theorem magnitude_significant_lt {f : Float} (h : f.isFinite) :
    (significant f 12).magnitude < maxFinite := by
  have hmax := magnitude_ofFloat_le h
  unfold significant
  simp only
  split_ifs with hzero
  · show ((0 : Nat) : ℚ) * 10 ^ (0 : Int) < maxFinite
    rw [Nat.cast_zero, zero_mul]
    exact lt_of_lt_of_le (by norm_num) (two_pow_le_maxFinite (n := 0) (by decide))
  · obtain ⟨hlow, hhigh⟩ := topExponent_spec hzero
    generalize htop : (ofFloat f).topExponent = top at hlow hhigh
    have hle : top ≤ 308 := by
      have hpow := (hlow.trans hmax).trans_lt maxFinite_lt_ten_pow
      have := (zpow_lt_zpow_iff_right₀ (by norm_num : (1 : ℚ) < 10)).mp hpow
      omega
    obtain ⟨n, hn, hlt⟩ : ∃ n : Nat, (ofFloat f).magnitude / 10 ^ (top - 11) < n + 1 / 2 ∧
        (n : ℚ) * 10 ^ (top - 11) < maxFinite := by
      by_cases hlast : top = 308
      · refine ⟨179769313486, ?_, ?_⟩
        · rw [hlast]
          exact (div_le_div_of_nonneg_right hmax (by positivity)).trans_lt maxFinite_div_lt
        · have hnat : 179769313486 * 10 ^ 297 < (2 ^ 53 - 1) * 2 ^ 971 := by decide +kernel
          have hrat := (Nat.cast_lt (α := ℚ)).mpr hnat
          rw [natCast_maxFinite, Nat.cast_mul, Nat.cast_pow] at hrat
          rw [hlast]
          exact hrat
      · refine ⟨10 ^ 12, ?_, ?_⟩
        · have hdigits : (ofFloat f).magnitude / 10 ^ (top - 11) < 10 ^ 12 := by
            rw [div_lt_iff₀ (by positivity), ← zpow_natCast, ← zpow_add₀ (by norm_num)]
            refine hhigh.trans_eq ?_
            congr 1
            push_cast
            omega
          push_cast
          linarith
        · have hnat : 10 ^ 308 < (2 ^ 53 - 1) * 2 ^ 971 := by decide +kernel
          have hrat := (Nat.cast_lt (α := ℚ)).mpr hnat
          rw [natCast_maxFinite, Nat.cast_pow] at hrat
          refine lt_of_le_of_lt ?_ hrat
          rw [Nat.cast_pow, Nat.cast_ofNat, ← zpow_natCast, ← zpow_natCast,
            ← zpow_add₀ (by norm_num)]
          exact zpow_le_zpow_right₀ (by norm_num) (by omega)
    have hround : ((roundDiv (quotient (ofFloat f).mantissa (ofFloat f).exponent (top - 11)).1
        (quotient (ofFloat f).mantissa (ofFloat f).exponent (top - 11)).2 : Nat) : ℚ) ≤ n := by
      exact_mod_cast roundDiv_quotient_le hn
    exact (mul_le_mul_of_nonneg_right hround (by positivity)).trans_lt hlt

end Decimal

end Breadboard
