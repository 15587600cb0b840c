/-!
# The order of floats

Floats are compared by sign, exponent and mantissa, and not at all if one is no number. So they are
not linearly ordered, but of two floats at most one is less than the other.
-/

namespace Breadboard

open Float.Model

theorem compare_swap (a b : UnpackedFloat) : b.compare a = (a.compare b).map Ordering.swap := by
  cases a with
  | notANumber => cases b <;> rfl
  | infinity s =>
    cases b with
    | infinity u => cases s <;> cases u <;> rfl
    | notANumber => cases s <;> rfl
    | zero u => cases s <;> rfl
    | finite u => cases s <;> cases u <;> rfl
  | zero s =>
    cases b with
    | infinity u => cases u <;> rfl
    | notANumber => rfl
    | zero u => rfl
    | finite u => cases u <;> rfl
  | finite s m e h =>
    cases b with
    | infinity u => cases s <;> cases u <;> rfl
    | notANumber => cases s <;> rfl
    | zero u => cases s <;> rfl
    | finite u n k h' =>
      have hswap : (compare k e).then (compare n m) =
          ((compare e k).then (compare m n)).swap := by
        rw [Ordering.swap_then, ← Std.OrientedOrd.eq_swap, ← Std.OrientedOrd.eq_swap]
      cases s with
      | positive =>
        cases u with
        | positive => exact congrArg some hswap
        | negative => rfl
      | negative =>
        cases u with
        | positive => rfl
        | negative => exact congrArg (fun o => some o.swap) hswap

theorem float_le_iff_compare {a b : Float} :
    a ≤ b ↔ (a.toModel.unpack.compare b.toModel.unpack).any (·.isLE) = true :=
  decide_eq_true_iff (p := a.toModel ≤ b.toModel)

theorem float_lt_iff_compare {a b : Float} :
    a < b ↔ a.toModel.unpack.compare b.toModel.unpack = some .lt :=
  (decide_eq_true_iff (p := a.toModel < b.toModel)).trans beq_iff_eq

theorem not_float_lt_of_le {a b : Float} (h : a ≤ b) : ¬ b < a := by
  intro hlt
  have hle := float_le_iff_compare.mp h
  have hgt := float_lt_iff_compare.mp hlt
  rw [compare_swap] at hgt
  cases hc : a.toModel.unpack.compare b.toModel.unpack with
  | none => rw [hc] at hgt; cases hgt
  | some o => rw [hc] at hgt hle; cases o <;> cases hgt; cases hle

theorem exists_compare {a b : UnpackedFloat} (ha : a.isFinite) (hb : b.isFinite) :
    ∃ o, a.compare b = some o := by
  cases a with
  | notANumber => cases ha
  | infinity s => cases ha
  | zero s =>
    cases b with
    | notANumber => cases hb
    | infinity u => cases hb
    | zero u => exact ⟨_, rfl⟩
    | finite u => cases u <;> exact ⟨_, rfl⟩
  | finite s =>
    cases b with
    | notANumber => cases hb
    | infinity u => cases hb
    | zero u => cases s <;> exact ⟨_, rfl⟩
    | finite u => cases s <;> cases u <;> exact ⟨_, rfl⟩

theorem le_of_not_float_lt {a b : Float} (ha : a.isFinite) (hb : b.isFinite) (h : ¬ b < a) :
    a ≤ b := by
  obtain ⟨o, ho⟩ := exists_compare (a := a.toModel.unpack) (b := b.toModel.unpack) ha hb
  rw [float_lt_iff_compare, compare_swap, ho] at h
  rw [float_le_iff_compare, ho]
  cases o with
  | lt => rfl
  | eq => rfl
  | gt => exact absurd rfl h

theorem not_le_zero_iff {f : Float} (h : f.isFinite) : ¬ f ≤ 0.0 ↔ 0.0 < f :=
  ⟨fun hle => Classical.byContradiction fun hlt =>
      hle (le_of_not_float_lt h (by decide +kernel) hlt),
    fun hlt hle => not_float_lt_of_le hle hlt⟩

/-- A float that can be compared with some float is a number, and a number can be compared with
zero. -/
theorem exists_compare_zero {a b : UnpackedFloat} {o : Ordering} (h : a.compare b = some o) :
    ∃ o, a.compare (.zero .positive) = some o := by
  cases a with
  | notANumber => cases b <;> cases h
  | infinity s => cases s <;> exact ⟨_, rfl⟩
  | zero s => exact ⟨_, rfl⟩
  | finite s => cases s <;> exact ⟨_, rfl⟩

theorem float_pos_of_lt {a b : Float} (h : a < b) (hpos : ¬ a ≤ 0.0) : 0.0 < a := by
  have hzero : (0.0 : Float).toModel.unpack = .zero .positive := by rfl
  obtain ⟨o, ho⟩ := exists_compare_zero (float_lt_iff_compare.mp h)
  rw [← hzero] at ho
  rw [float_le_iff_compare, ho] at hpos
  rw [float_lt_iff_compare, compare_swap, ho]
  cases o with
  | gt => rfl
  | lt | eq => exact absurd rfl hpos

theorem float_le_of_lt {a b : Float} (h : a < b) : a ≤ b := by
  rw [float_le_iff_compare, float_lt_iff_compare.mp h]
  rfl

end Breadboard
