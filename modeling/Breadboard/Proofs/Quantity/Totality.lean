import Breadboard.Proofs.Decimal.Range
import Breadboard.Quantity

/-!
# Quantities of every kind

A quantity may come as any JSON value. What is found is a finite number or nothing, and only whole
numbers stand in the way: one that is beyond the range of floats, and one inside a list or an object
that is too long to be written out.
-/

namespace Breadboard

open Numeral

/-- The whole number stands in a value, at any depth. -/
inductive Json.Holds (n : ℤ) : Json → Prop where
  | self : Holds n (.int n)
  | item {items : List Json} {j : Json} : j ∈ items → Holds n j → Holds n (.list items)
  | field {fields : List (String × Json)} {f : String × Json} :
      f ∈ fields → Holds n f.2 → Holds n (.object fields)

theorem Decimal.lt_width_iff {n k : ℕ} (hk : 0 < k) : k < width n ↔ 10 ^ k ≤ n := by
  constructor
  · intro hlt
    have hzero : n ≠ 0 := by
      rintro rfl
      have hone : width 0 = 1 := rfl
      omega
    calc 10 ^ k ≤ 10 ^ (width n - 1) := Nat.pow_le_pow_right (by decide) (by omega)
      _ ≤ n := pow_width_le hzero
  · intro hle
    by_contra hshort
    have hpow : 10 ^ width n ≤ 10 ^ k := Nat.pow_le_pow_right (by decide) (by omega)
    exact absurd (lt_pow_width n) (by omega)

namespace Quantity

/-! ## Numbers that are too long -/

mutual

theorem holdsLong_iff : ∀ j : Json, holdsLong j ↔ ∃ n, j.Holds n ∧ 10 ^ maxDigits ≤ n.natAbs
  | .null => ⟨nofun, nofun⟩
  | .bool _ => ⟨nofun, nofun⟩
  | .float _ => ⟨nofun, nofun⟩
  | .text _ => ⟨nofun, nofun⟩
  | .int m => by
    rw [holdsLong, decide_eq_true_eq, Decimal.lt_width_iff (by decide)]
    exact ⟨fun h => ⟨m, .self, h⟩, fun ⟨_, .self, h⟩ => h⟩
  | .list items => by
    rw [holdsLong, itemsHoldLong_iff items]
    exact ⟨fun ⟨_, hj, n, hn, hlong⟩ => ⟨n, .item hj hn, hlong⟩,
      fun ⟨n, .item hj hn, hlong⟩ => ⟨_, hj, n, hn, hlong⟩⟩
  | .object fields => by
    rw [holdsLong, fieldsHoldLong_iff fields]
    exact ⟨fun ⟨_, hf, n, hn, hlong⟩ => ⟨n, .field hf hn, hlong⟩,
      fun ⟨n, .field hf hn, hlong⟩ => ⟨_, hf, n, hn, hlong⟩⟩

theorem itemsHoldLong_iff : ∀ items : List Json, itemsHoldLong items ↔
    ∃ j ∈ items, ∃ n, j.Holds n ∧ 10 ^ maxDigits ≤ n.natAbs
  | [] => ⟨nofun, nofun⟩
  | j :: js => by
    rw [itemsHoldLong, Bool.or_eq_true, holdsLong_iff j, itemsHoldLong_iff js,
      List.exists_mem_cons_iff]

theorem fieldsHoldLong_iff : ∀ fields : List (String × Json), fieldsHoldLong fields ↔
    ∃ f ∈ fields, ∃ n, f.2.Holds n ∧ 10 ^ maxDigits ≤ n.natAbs
  | [] => ⟨nofun, nofun⟩
  | f :: fs => by
    rw [fieldsHoldLong, Bool.or_eq_true, holdsLong_iff f.2, fieldsHoldLong_iff fs,
      List.exists_mem_cons_iff]

end

/-! ## What is found -/

variable {j : Json}

theorem isFinite_of_ofJson {v : Float} (h : ofJson j = .ok (some v)) : v.isFinite := by
  cases j with
  | int n =>
    simp only [ofJson] at h
    split at h
    · next hfloat =>
      cases h
      exact Decimal.isFinite_of_floatOfInt? hfloat
    · cases h
  | float f =>
    simp only [ofJson] at h
    split at h
    · next hfinite =>
      cases h
      exact hfinite
    · cases h
  | text s => exact isFinite_of_read (Except.ok.inj h)
  | _ =>
    simp only [ofJson] at h
    split at h <;> cases h

/-- A value that is looked at as its text stands for nothing, unless it holds too long a number. -/
theorem exists_found_iff :
    (∃ found : Option Float, (if holdsLong j then .error .tooManyDigits else .ok none) =
      (.ok found : Except Fault (Option Float))) ↔ ∀ n, j.Holds n → n.natAbs < 10 ^ maxDigits := by
  have hlong := holdsLong_iff j
  split
  · next hj =>
    obtain ⟨n, hn, hle⟩ := hlong.mp hj
    exact iff_of_false nofun fun hall => absurd (hall n hn) (not_lt.mpr hle)
  · next hj =>
    exact iff_of_true ⟨none, rfl⟩ fun n hn => not_le.mp fun hle => hj (hlong.mpr ⟨n, hn, hle⟩)

theorem rangeEnd_le_ten_pow : rangeEnd ≤ 10 ^ maxDigits := by decide +kernel

theorem exists_ofJson_iff :
    (∃ found, ofJson j = .ok found) ↔
      (∀ n, j = .int n → n.natAbs < rangeEnd) ∧ ∀ n, j.Holds n → n.natAbs < 10 ^ maxDigits := by
  cases j with
  | int n =>
    have hfloat := Decimal.floatOfInt?_eq_none_iff (n := n)
    simp only [ofJson]
    cases hn : Decimal.floatOfInt? n with
    | none =>
      exact iff_of_false nofun fun h => absurd (h.1 n rfl) (not_lt.mpr (hfloat.mp hn))
    | some f =>
      have hlt : n.natAbs < rangeEnd := not_le.mp fun hle => by
        rw [hfloat.mpr hle] at hn
        cases hn
      refine iff_of_true ⟨some f, rfl⟩ ⟨?_, ?_⟩
      · rintro _ ⟨⟩
        exact hlt
      · rintro _ ⟨⟩
        exact hlt.trans_le rangeEnd_le_ten_pow
  | float f => exact iff_of_true ⟨_, rfl⟩ ⟨nofun, nofun⟩
  | text s => exact iff_of_true ⟨_, rfl⟩ ⟨nofun, nofun⟩
  | _ =>
    rw [← exists_found_iff]
    exact ⟨fun h => ⟨nofun, h⟩, fun h => h.2⟩

/-! ## Quantities with a fallback -/

section

variable {α : Type} (fallback : α)

theorem ofJsonOr_text (s : String) :
    ofJsonOr fallback (.text s) = .ok ((read s).elim (.inr fallback) .inl) := rfl

theorem exists_ofJsonOr_iff :
    (∃ v, v.isFinite ∧ ofJsonOr fallback j = .ok (.inl v)) ∨
      ofJsonOr fallback j = .ok (.inr fallback) ↔ ∃ found, ofJson j = .ok found := by
  unfold ofJsonOr
  cases hj : ofJson j with
  | error e => exact iff_of_false (by rintro (⟨_, -, h⟩ | h) <;> cases h) nofun
  | ok found =>
    refine iff_of_true ?_ ⟨found, rfl⟩
    cases found with
    | none => exact .inr rfl
    | some v => exact .inl ⟨v, isFinite_of_ofJson hj, rfl⟩

/-- **Where a quantity can be looked at.** A value is a finite number, or gives the fallback,
exactly if it is no whole number beyond the range of floats and holds none that is too long. -/
theorem ofJsonOr_total_iff :
    (∃ v, v.isFinite ∧ ofJsonOr fallback j = .ok (.inl v)) ∨
        ofJsonOr fallback j = .ok (.inr fallback) ↔
      (∀ n, j = .int n → n.natAbs < rangeEnd) ∧ ∀ n, j.Holds n → n.natAbs < 10 ^ maxDigits :=
  (exists_ofJsonOr_iff fallback).trans exists_ofJson_iff

/-- A whole number of 401 digits has no value and gives no fallback. -/
theorem ofJsonOr_beyondRange :
    ofJsonOr (42.0 : Float) (.int (10 ^ 400)) = .error .outOfRange ∧
      ¬ ((∃ v, v.isFinite ∧ ofJsonOr (42.0 : Float) (.int (10 ^ 400)) = .ok (.inl v)) ∨
        ofJsonOr (42.0 : Float) (.int (10 ^ 400)) = .ok (.inr 42.0)) := by
  have hnone : Decimal.floatOfInt? (10 ^ 400) = none :=
    Decimal.floatOfInt?_eq_none_iff.mpr (by decide +kernel)
  have herror : ofJsonOr (42.0 : Float) (.int (10 ^ 400)) = .error .outOfRange := by
    unfold ofJsonOr
    simp only [ofJson, hnone]
    rfl
  rw [herror]
  exact ⟨rfl, by rintro (⟨_, -, h⟩ | h) <;> cases h⟩

end

end Quantity

end Breadboard
