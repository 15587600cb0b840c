import Breadboard.Text.Blank
import Breadboard.Text.Digit
import Mathlib.Tactic.IntervalCases

/-!
# Small letters

Making a letter small gives a small letter, and leaves every other character as it is. Neither
blanks nor digits have a case.
-/

namespace Breadboard.Text

theorem isLower_iff_toNat {c : Char} : c.isLower ↔ 97 ≤ c.toNat ∧ c.toNat ≤ 122 := by
  rw [show c.isLower = (decide (97 ≤ c.val) && decide (c.val ≤ 122)) from rfl]
  simp [UInt32.le_iff_toNat_le, ← Char.toNat_val]

theorem toLower_eq_or_isLower (c : Char) : c.toLower = c ∨ c.toLower.isLower := by
  unfold Char.toLower
  split
  · next h =>
    have hlow : 65 ≤ c.val.toNat := h.1
    have hhigh : c.val.toNat ≤ 90 := h.2
    right
    rw [isLower_iff_toNat]
    show 97 ≤ (c.val.toNat + 32) % 2 ^ 32 ∧ (c.val.toNat + 32) % 2 ^ 32 ≤ 122
    omega
  · exact .inl rfl

theorem eq_of_toLower_eq {c p : Char} (hp : p.isLower = false) (h : c.toLower = p) : c = p := by
  rcases toLower_eq_or_isLower c with heq | hlower
  · rw [← heq, h]
  · rw [h, hp] at hlower
    cases hlower

theorem isBlank_toLower (c : Char) : isBlank c.toLower = isBlank c := by
  unfold Char.toLower
  split
  · next h =>
    have hlow : 65 ≤ c.val.toNat := h.1
    have hhigh : c.val.toNat ≤ 90 := h.2
    have hupper : isBlank c = false := by
      simp only [isBlank, Bool.or_eq_false_iff, Bool.and_eq_false_iff, decide_eq_false_iff_not,
        beq_eq_false_iff_ne, Char.toNat]
      omega
    rw [hupper]
    simp only [isBlank, Bool.or_eq_false_iff, Bool.and_eq_false_iff, decide_eq_false_iff_not,
      beq_eq_false_iff_ne, Char.toNat, UInt32.toNat_add]
    have hshift : ('a'.val - 'A'.val).toNat = 32 := rfl
    omega
  · rfl

theorem toLower_of_isDecimal {c : Char} (h : isDecimal c) : c.toLower = c := by
  unfold Char.toLower
  rw [dif_neg]
  rintro ⟨hlow, hhigh⟩
  have hlow : 65 ≤ c.toNat := hlow
  have hhigh : c.toNat ≤ 90 := hhigh
  rw [← Char.ofNat_toNat c] at h
  generalize c.toNat = n at h hlow hhigh
  interval_cases n <;> exact absurd h (by decide)

end Breadboard.Text
