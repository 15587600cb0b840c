import Breadboard.Text.Utf8
import Mathlib.Tactic.SplitIfs

/-!
# UTF-8 read back

The bytes of a text are read as that text, whatever its characters are.
-/

namespace Breadboard.Text

/-! ## One byte -/

namespace Utf8State

variable {text : List Char} {position b : Nat}

theorem step_ascii (h : b < 0x80) :
    step ⟨text, position, none⟩ (UInt8.ofNat b) =
      .ok ⟨Char.ofNat b :: text, position + 1, none⟩ := by
  have hbyte : (UInt8.ofNat b).toNat = b := UInt8.toNat_ofNat_of_lt' (Nat.lt_trans h (by decide))
  unfold step
  simp only [hbyte, begin, if_pos h]

theorem step_first {n low high : Nat} (hb : b < 256) (h : 0x80 ≤ b)
    (hshape : sequenceShape b = some (n, low, high)) :
    step ⟨text, position, none⟩ (UInt8.ofNat b) =
      .ok ⟨text, position + 1, some ⟨position, b,
        if n = 1 then b % 32 else if n = 2 then b % 16 else b % 8, 1, n, low, high⟩⟩ := by
  have hbyte : (UInt8.ofNat b).toNat = b := UInt8.toNat_ofNat_of_lt' hb
  unfold step
  simp only [hbyte, begin, if_neg (Nat.not_lt.mpr h), hshape]

theorem step_more {p : PartialChar} {n : Nat} (hb : b < 256) (hlow : p.low ≤ b)
    (hhigh : b ≤ p.high) (hmissing : p.missing = n + 2) :
    step ⟨text, position, some p⟩ (UInt8.ofNat b) =
      .ok ⟨text, position + 1, some ⟨p.position, p.first, p.bits * 64 + b % 64, p.taken + 1, n + 1,
        0x80, 0xBF⟩⟩ := by
  have hbyte : (UInt8.ofNat b).toNat = b := UInt8.toNat_ofNat_of_lt' hb
  unfold step
  have hmore : ¬ n + 2 ≤ 1 := by omega
  simp only [hbyte, hlow, hhigh, decide_true, Bool.and_self, if_true, hmissing, if_neg hmore,
    Nat.add_one_sub_one]

/-- The last byte of a character ends it. -/
theorem step_last {p : PartialChar} (hb : b < 256) (hlow : p.low ≤ b) (hhigh : b ≤ p.high)
    (hmissing : p.missing = 1) :
    step ⟨text, position, some p⟩ (UInt8.ofNat b) =
      .ok ⟨Char.ofNat (p.bits * 64 + b % 64) :: text, position + 1, none⟩ := by
  have hbyte : (UInt8.ofNat b).toNat = b := UInt8.toNat_ofNat_of_lt' hb
  unfold step
  simp only [hbyte, hlow, hhigh, decide_true, Bool.and_self, if_true, hmissing, Nat.le_refl]

theorem foldlM_of_step {s t : Utf8State} {byte : UInt8} (h : s.step byte = .ok t)
    (bytes : List UInt8) : (byte :: bytes).foldlM step s = bytes.foldlM step t := by
  rw [List.foldlM_cons, h]
  rfl

end Utf8State

/-! ## One character -/

theorem sequenceShape_two {v : Nat} (hlow : 0x80 ≤ v) (hhigh : v < 0x800) :
    sequenceShape (v / 64 % 32 + 192) = some (1, 0x80, 0xBF) := by
  unfold sequenceShape
  rw [if_neg (by omega), if_pos (by omega)]

/-- The second byte of three keeps its bounds, which leave the surrogates out. -/
theorem exists_sequenceShape_three {v : Nat} (hlow : 0x800 ≤ v) (hhigh : v < 0x10000)
    (hv : v < 0xD800 ∨ 0xDFFF < v) :
    ∃ low high, sequenceShape (v / 4096 % 16 + 224) = some (2, low, high) ∧
      low ≤ v / 64 % 64 + 128 ∧ v / 64 % 64 + 128 ≤ high := by
  unfold sequenceShape
  rw [if_neg (by omega), if_neg (by omega)]
  split_ifs with hfirst hsurrogate hother
  · exact ⟨_, _, rfl, by omega, by omega⟩
  · exact ⟨_, _, rfl, by omega, by omega⟩
  · exact ⟨_, _, rfl, by omega, by omega⟩
  all_goals omega

/-- The second byte of four keeps its bounds, which end with the last character. -/
theorem exists_sequenceShape_four {v : Nat} (hlow : 0x10000 ≤ v) (hhigh : v < 0x110000) :
    ∃ low high, sequenceShape (v / 262144 % 8 + 240) = some (3, low, high) ∧
      low ≤ v / 4096 % 64 + 128 ∧ v / 4096 % 64 + 128 ≤ high := by
  unfold sequenceShape
  rw [if_neg (by omega), if_neg (by omega), if_neg (by omega), if_neg (by omega),
    if_neg (by omega)]
  split_ifs with hfirst hother hlast
  · exact ⟨_, _, rfl, by omega, by omega⟩
  · exact ⟨_, _, rfl, by omega, by omega⟩
  · exact ⟨_, _, rfl, by omega, by omega⟩
  all_goals omega

/-- The bytes of a character are read as that character. -/
theorem foldlM_utf8EncodeChar (c : Char) (text : List Char) (position : Nat) :
    (String.utf8EncodeChar c).foldlM Utf8State.step ⟨text, position, none⟩ =
      .ok ⟨c :: text, position + (String.utf8EncodeChar c).length, none⟩ := by
  have hvalid : c.toNat < 0xD800 ∨ 0xDFFF < c.toNat ∧ c.toNat < 0x110000 := c.valid
  have hchar (n : Nat) (h : n = c.toNat) : Char.ofNat n = c := by rw [h, Char.ofNat_toNat]
  have hval : c.val.toNat = c.toNat := rfl
  unfold String.utf8EncodeChar
  rw [hval]
  generalize hv : c.toNat = v at hvalid hchar ⊢
  dsimp only
  split_ifs with hone htwo hthree
  · rw [Utf8State.foldlM_of_step (Utf8State.step_ascii (by omega)), hchar v rfl]
    rfl
  · have hshape := sequenceShape_two (v := v) (by omega) (by omega)
    rw [Utf8State.foldlM_of_step (Utf8State.step_first (by omega) (by omega) hshape),
      Utf8State.foldlM_of_step (Utf8State.step_last (by omega) (by dsimp only; omega)
        (by dsimp only; omega) rfl)]
    dsimp only
    rw [if_pos rfl, hchar _ (by omega)]
    rfl
  · obtain ⟨low, high, hshape, hlow, hhigh⟩ :=
      exists_sequenceShape_three (v := v) (by omega) (by omega) (by omega)
    rw [Utf8State.foldlM_of_step (Utf8State.step_first (by omega) (by omega) hshape),
      Utf8State.foldlM_of_step (Utf8State.step_more (by omega) hlow hhigh rfl),
      Utf8State.foldlM_of_step (Utf8State.step_last (by omega) (by dsimp only; omega)
        (by dsimp only; omega) rfl)]
    dsimp only
    rw [if_neg (by decide), if_pos rfl, hchar _ (by omega)]
    rfl
  · obtain ⟨low, high, hshape, hlow, hhigh⟩ :=
      exists_sequenceShape_four (v := v) (by omega) (by omega)
    rw [Utf8State.foldlM_of_step (Utf8State.step_first (by omega) (by omega) hshape),
      Utf8State.foldlM_of_step (Utf8State.step_more (by omega) hlow hhigh rfl),
      Utf8State.foldlM_of_step (Utf8State.step_more (by omega) (by dsimp only; omega)
        (by dsimp only; omega) rfl),
      Utf8State.foldlM_of_step (Utf8State.step_last (by omega) (by dsimp only; omega)
        (by dsimp only; omega) rfl)]
    dsimp only
    rw [if_neg (by decide), if_neg (by decide), hchar _ (by omega)]
    rfl

/-! ## Texts -/

theorem foldlM_encodeUtf8 (cs text : List Char) (position : Nat) :
    ∃ n, (encodeUtf8 cs).foldlM Utf8State.step ⟨text, position, none⟩ =
      .ok ⟨cs.reverse ++ text, n, none⟩ := by
  induction cs generalizing text position with
  | nil => exact ⟨position, rfl⟩
  | cons c cs ih =>
    obtain ⟨n, hn⟩ := ih (c :: text) (position + (String.utf8EncodeChar c).length)
    refine ⟨n, ?_⟩
    unfold encodeUtf8 at hn ⊢
    rw [List.flatMap_cons, List.foldlM_append, foldlM_utf8EncodeChar]
    rw [List.reverse_cons, List.append_assoc, List.singleton_append]
    exact hn

/-- The bytes of a text are read as that text. -/
theorem decodeUtf8_encodeUtf8 (cs : List Char) : decodeUtf8 (encodeUtf8 cs) = .ok cs := by
  obtain ⟨n, hn⟩ := foldlM_encodeUtf8 cs [] 0
  unfold decodeUtf8
  rw [hn, List.append_nil]
  show Except.ok cs.reverse.reverse = _
  rw [List.reverse_reverse]

end Breadboard.Text
