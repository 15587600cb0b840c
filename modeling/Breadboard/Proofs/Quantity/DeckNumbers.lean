import Breadboard.Proofs.Decimal.Printed
import Breadboard.Proofs.Quantity.Totality

/-!
# Numbers in decks as quantities

What a deck holds for a float is a number in decimal form, with neither prefix nor unit. As a
quantity it is the number it is as a numeral.
-/

namespace Breadboard.Quantity

open Numeral

/-- **Numbers in decks are plain numbers.** The text for a float is a number in decimal form, of the
float's sign and its magnitude rounded to twelve digits. As a quantity it is worth what the numeral
is worth, which is finite. -/
theorem forDeck_plain {α : Type} (f : Float) (fallback : α) :
    ∃ t : Written, (forDeck f).toList = t.text ∧
      readFloat (forDeck f).toList = some t.value ∧ t.value.isFinite ∧
      ofJsonOr fallback (.text (forDeck f)) = .ok (.inl t.value) ∧
      (f.isFinite → t.decimal.negative = (Binary.ofFloat f).negative ∧
        |t.decimal.magnitude - (Binary.ofFloat f).magnitude| ≤
          (Binary.ofFloat f).magnitude / (2 * 10 ^ 11)) := by
  obtain ⟨t, htext, hfinite, hrounded⟩ := exists_written_forDeck f
  have hread := read_text hfinite
  rw [← htext, String.ofList_toList] at hread
  refine ⟨t, htext, ?_, hfinite, ?_, fun h => ?_⟩
  · rw [htext, t.readFloat_text]
  · rw [ofJsonOr_text, hread]
    rfl
  · obtain ⟨hsign, hmagnitude⟩ := hrounded h
    have hclose := Decimal.abs_magnitude_significant_sub_le f 12
    rw [hsign, hmagnitude, Decimal.negative_significant]
    norm_num at hclose ⊢
    exact hclose

end Breadboard.Quantity
