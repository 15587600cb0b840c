import Breadboard.Proofs.Decimal.Significant
import Breadboard.Proofs.Output.PrintedHeader
import Breadboard.Proofs.Output.Written
import Breadboard.Quantity
import Mathlib

/-!
# Printed decimals

However a decimal is laid out, its text is a number in decimal form of the same sign and magnitude,
and a finite float times one is that float. So the numbers in decks are read back, and are finite.
-/

namespace Breadboard

open Text Numeral

/-! ## The values of digits -/

namespace Decimal

theorem ofDigits_append (ds es : List Nat) :
    ofDigits (ds ++ es) = ofDigits ds * 10 ^ es.length + ofDigits es := by
  induction es using List.reverseRecOn with
  | nil => simp
  | append_singleton es e ih =>
    have hlast (ds : List Nat) : ofDigits (ds ++ [e]) = 10 * ofDigits ds + e := by
      rw [ofDigits, List.foldl_append]
      rfl
    rw [← List.append_assoc, hlast, hlast, ih, List.length_append, List.length_singleton, pow_succ]
    ring

theorem ofDigits_replicate_zero (k : Nat) : ofDigits (List.replicate k 0) = 0 := by
  induction k with
  | zero => rfl
  | succ k ih =>
    rw [List.replicate_succ', ofDigits_append, ih]
    rfl

end Decimal

theorem filterMap_replicate_zero (k : Nat) :
    (List.replicate k '0').filterMap digitValue? = List.replicate k 0 := by
  have hzero : digitValue? '0' = some 0 := by decide
  rw [List.filterMap_replicate_of_some hzero]

theorem isDigit_digitChars (n : Nat) : ∀ c ∈ Decimal.digitChars n, c.isDigit :=
  fun _ hc => Nat.isDigit_of_mem_toDigits (by decide) (by decide) hc

theorem ofDigits_digitChars (n : Nat) :
    Decimal.ofDigits ((Decimal.digitChars n).filterMap digitValue?) = n := by
  rw [ofDigits_eq_ofDigitChars (isDigit_digitChars n)]
  exact Nat.ofDigitChars_ten_toDigits

theorem isDigit_replicate_zero (k : Nat) : ∀ c ∈ List.replicate k '0', c.isDigit := by
  intro c hc
  rw [List.eq_of_mem_replicate hc]
  rfl

/-! ## The magnitude of a written number -/

/-- The digits of a number around its point make up its magnitude. -/
theorem Written.magnitude_decimal (t : Written) :
    t.decimal.magnitude =
      Decimal.ofDigits ((t.whole ++ t.fraction.getD []).filterMap digitValue?) *
        10 ^ ((t.power.map Power.value).getD 0 - ((t.fraction.getD []).length : Int)) := by
  have hfraction : ∀ c ∈ t.fraction.getD [], isDecimal c := by
    cases hf : t.fraction with
    | none => exact fun c hc => nomatch hc
    | some ds => exact isDecimal_of_forall (t.fraction_decimal ds hf)
  unfold Written.decimal Numeral.decimal Decimal.magnitude
  rw [List.filterMap_append, length_filterMap_digitValue? hfraction]

/-! ## Layouts -/

namespace Decimal

/-- The sign that is written. -/
def signOf (negative : Bool) : Option Sign := if negative then some .minus else none

theorem withSign_eq (negative : Bool) (cs : List Char) :
    withSign negative cs = ((signOf negative).map Sign.char).toList ++ cs := by
  cases negative <;> rfl

theorem signOf_beq (negative : Bool) : (signOf negative == some .minus) = negative := by
  cases negative <;> rfl

/-- The text of a number in decimal form, of a sign and a magnitude. -/
def Writes (negative : Bool) (magnitude : ℚ) (cs : List Char) : Prop :=
  ∃ t : Written, cs = t.text ∧ t.decimal.negative = negative ∧ t.decimal.magnitude = magnitude

theorem stripZeros_value (n : Nat) (e : Int) :
    ((stripZeros n e).1 : ℚ) * 10 ^ (stripZeros n e).2 = n * 10 ^ e := by
  induction n, e using stripZeros.induct with
  | case1 e =>
    unfold stripZeros
    simp
  | case2 n e hzero hten ih =>
    unfold stripZeros
    rw [if_neg hzero, if_pos hten, ih]
    have hdiv : (n : ℚ) = (n / 10 : Nat) * 10 := by exact_mod_cast (by omega : n = n / 10 * 10)
    rw [hdiv, zpow_add₀ (by norm_num)]
    ring
  | case3 n e hzero hten =>
    unfold stripZeros
    rw [if_neg hzero, if_neg hten]

theorem Writes.of_eq {negative : Bool} {q r : ℚ} {cs ds : List Char} (h : Writes negative q cs)
    (hq : q = r) (hcs : cs = ds) : Writes negative r ds := by
  rw [← hq, ← hcs]
  exact h

/-- Digits around a point and an exponent write what they say. -/
theorem writes_of_parts (negative : Bool) (whole : List Char) (fraction : Option (List Char))
    (power : Option Power) (hwhole : ∀ c ∈ whole, c.isDigit)
    (hfraction : ∀ ds ∈ fraction, ∀ c ∈ ds, c.isDigit) (hpos : whole ++ fraction.getD [] ≠ []) :
    Writes negative
      (ofDigits ((whole ++ fraction.getD []).filterMap digitValue?) *
        10 ^ ((power.map Power.value).getD 0 - ((fraction.getD []).length : Int)))
      (withSign negative
        (whole ++ ((fraction.map ('.' :: ·)).getD [] ++ (power.map Power.text).getD []))) := by
  refine ⟨⟨signOf negative, whole, fraction, power, hwhole, hfraction, hpos⟩, ?_, ?_, ?_⟩
  · rw [withSign_eq]
    rfl
  · exact signOf_beq negative
  · exact Written.magnitude_decimal _

theorem ofDigits_padded (before after n : Nat) :
    ofDigits ((List.replicate before '0' ++ digitChars n ++ List.replicate after '0').filterMap
      digitValue?) = n * 10 ^ after := by
  rw [List.filterMap_append, List.filterMap_append, filterMap_replicate_zero,
    filterMap_replicate_zero, ofDigits_append, ofDigits_append, ofDigits_digitChars,
    ofDigits_replicate_zero, ofDigits_replicate_zero, List.length_replicate, Nat.zero_mul,
    Nat.zero_add, Nat.add_zero]

theorem isDigit_padded (before after n : Nat) :
    ∀ c ∈ List.replicate before '0' ++ digitChars n ++ List.replicate after '0', c.isDigit :=
  List.forall_mem_append.mpr ⟨List.forall_mem_append.mpr
    ⟨isDigit_replicate_zero before, isDigit_digitChars n⟩, isDigit_replicate_zero after⟩

theorem writes_positional_of_nonneg (negative pointZero : Bool) (n : Nat) {e : Int} (he : 0 ≤ e) :
    Writes negative (n * 10 ^ e) (withSign negative (positional pointZero (digitChars n) e)) := by
  have hpower : (10 : ℚ) ^ e = 10 ^ e.toNat := by
    rw [← zpow_natCast, Int.toNat_of_nonneg he]
  have hdigits := isDigit_padded 0 e.toNat n
  have hne : digitChars n ++ List.replicate e.toNat '0' ≠ [] :=
    List.append_ne_nil_of_left_ne_nil Nat.toDigits_ne_nil _
  rw [List.replicate_zero, List.nil_append] at hdigits
  unfold positional
  rw [if_pos he, hpower]
  cases pointZero with
  | false =>
    have hvalue := ofDigits_padded 0 e.toNat n
    rw [List.replicate_zero, List.nil_append] at hvalue
    refine (writes_of_parts negative (digitChars n ++ List.replicate e.toNat '0') none none hdigits
      (by simp) (by simpa using hne)).of_eq ?_ rfl
    rw [Option.getD_none, List.append_nil, hvalue]
    push_cast
    simp
  | true =>
    have hvalue := ofDigits_padded 0 (e.toNat + 1) n
    rw [List.replicate_zero, List.nil_append, List.replicate_succ', ← List.append_assoc] at hvalue
    refine (writes_of_parts negative (digitChars n ++ List.replicate e.toNat '0') (some ['0']) none
      hdigits ?_ (by simp)).of_eq ?_ rfl
    · rintro _ ⟨⟩
      exact List.forall_mem_singleton.mpr rfl
    · simp only [Option.getD_some, hvalue, Option.map_none, Option.getD_none, List.length_singleton]
      push_cast
      rw [pow_succ]
      norm_num
      ring

theorem writes_positional_of_neg (negative pointZero : Bool) (n : Nat) {e : Int} (he : e < 0) :
    Writes negative (n * 10 ^ e) (withSign negative (positional pointZero (digitChars n) e)) := by
  have hdigits := isDigit_padded ((-e).toNat + 1 - (digitChars n).length) 0 n
  have hvalue := ofDigits_padded ((-e).toNat + 1 - (digitChars n).length) 0 n
  rw [List.replicate_zero, List.append_nil] at hdigits hvalue
  unfold positional
  rw [if_neg (by omega)]
  simp only
  generalize hpadded : List.replicate ((-e).toNat + 1 - (digitChars n).length) '0' ++ digitChars n =
    padded at hdigits hvalue
  have hlength : (-e).toNat + 1 ≤ padded.length := by
    rw [← hpadded, List.length_append, List.length_replicate]
    omega
  generalize hsplit : padded.length - (-e).toNat = whole
  have hfraction : ((padded.drop whole).length : Int) = -e := by
    rw [List.length_drop]
    omega
  refine (writes_of_parts negative (padded.take whole) (some (padded.drop whole)) none ?_ ?_
    ?_).of_eq ?_ ?_
  · exact fun c hc => hdigits c (List.mem_of_mem_take hc)
  · rintro _ ⟨⟩ c hc
    exact hdigits c (List.mem_of_mem_drop hc)
  · rw [Option.getD_some, List.take_append_drop]
    exact List.ne_nil_of_length_pos (by omega)
  · rw [Option.getD_some, List.take_append_drop, hvalue, hfraction]
    simp
  · simp

theorem exists_power (e : Int) : ∃ p : Power, p.text = exponentChars e ∧ p.value = e := by
  have hdigits := isDigit_digitChars e.natAbs
  obtain ⟨ds, hds, hd, hne, hvalue⟩ : ∃ ds,
      exponentChars e = 'e' :: (if e < 0 then '-' else '+') :: ds ∧ (∀ c ∈ ds, c.isDigit) ∧
        ds ≠ [] ∧ ofDigits (ds.filterMap digitValue?) = e.natAbs := by
    refine ⟨_, rfl, ?_, ?_, ?_⟩
    · split
      · exact List.forall_mem_cons.mpr ⟨rfl, hdigits⟩
      · exact hdigits
    · split
      · exact List.cons_ne_nil _ _
      · exact Nat.toDigits_ne_nil
    · split
      · have hpadded := ofDigits_padded 1 0 e.natAbs
        simpa using hpadded
      · exact ofDigits_digitChars _
  refine ⟨⟨'e', some (if e < 0 then .minus else .plus), ds, rfl, hd, hne⟩, ?_, ?_⟩
  · rw [hds]
    by_cases he : e < 0 <;> simp [Power.text, he, Sign.char]
  · unfold Power.value
    simp only [hvalue]
    by_cases he : e < 0
    · simp only [he, if_true]
      omega
    · simp only [he, if_false]
      rw [if_neg (by decide)]
      omega

theorem writes_scientific (negative : Bool) (n : Nat) (e : Int) :
    Writes negative (n * 10 ^ e)
      (withSign negative (scientific (digitChars n) (e + ((digitChars n).length : Int) - 1))) := by
  obtain ⟨p, htext, hvalue⟩ := exists_power (e + ((digitChars n).length : Int) - 1)
  have hdigits := isDigit_digitChars n
  have hof := ofDigits_digitChars n
  have hne : digitChars n ≠ [] := Nat.toDigits_ne_nil
  unfold scientific
  rw [← htext]
  generalize digitChars n = ds at *
  cases ds with
  | nil => exact absurd rfl hne
  | cons d rest =>
    cases rest with
    | nil =>
      refine (writes_of_parts negative [d] none (some p) hdigits (by simp) (by simp)).of_eq ?_ rfl
      simp only [Option.getD_none, List.append_nil, hof, Option.map_some, Option.getD_some, hvalue]
      simp
    | cons c rest =>
      obtain ⟨hd, hrest⟩ := List.forall_mem_cons.mp hdigits
      refine (writes_of_parts negative [d] (some (c :: rest)) (some p)
        (List.forall_mem_singleton.mpr hd) ?_ (by simp)).of_eq ?_ ?_
      · rintro _ ⟨⟩
        exact hrest
      · simp only [Option.getD_some, List.singleton_append, hof, Option.map_some, hvalue]
        congr 2
        simp only [List.length_cons]
        push_cast
        ring
      · simp

/-- However a decimal is laid out, its text writes its sign and magnitude. -/
theorem writes_layOut (l : Layout) (d : Decimal) :
    Writes d.negative d.magnitude (d.layOut l) := by
  have hvalue := stripZeros_value d.coefficient d.exponent
  unfold layOut magnitude
  rw [← hvalue]
  simp only
  split
  · by_cases he : 0 ≤ (stripZeros d.coefficient d.exponent).2
    · exact writes_positional_of_nonneg _ _ _ he
    · exact writes_positional_of_neg _ _ _ (by omega)
  · exact writes_scientific _ _ _

end Decimal

/-! ## Floats times one -/

section

open Float.Model Float.Model.UnpackedFloat

theorem unpack_one : ∃ hm, (1.0 : Float).toModel.unpack = .finite .positive (2 ^ 52) (-52) hm :=
  ⟨by decide, by rfl⟩

theorem mul_one_of_isFinite {x : Float} (h : x.isFinite) : x * 1.0 = x := by
  have hfinite : x.toModel.unpack.isFinite := h
  obtain ⟨hone, hunpack⟩ := unpack_one
  have hsign (s : UnpackedFloat.Sign) : s * .positive = s := by cases s <;> rfl
  have hproduct : UnpackedFloat.mul Format.binary64 x.toModel.unpack (1.0 : Float).toModel.unpack =
      x.toModel.unpack := by
    rw [hunpack]
    cases hu : x.toModel.unpack with
    | notANumber => rw [hu] at hfinite; cases hfinite
    | infinity s => rw [hu] at hfinite; cases hfinite
    | zero s =>
      show UnpackedFloat.zero (s * .positive) = _
      rw [hsign]
    | finite s m e hm =>
      show roundWithAccuracy Format.binary64 (s * .positive) (m * 2 ^ 52) (e - (52 : Nat))
        .exact = _
      rw [hsign, roundWithAccuracy_mul (isShape_of_unpack hu) hm s 52]
  show Float.ofModel (Float.Model.pack (UnpackedFloat.mul Format.binary64 x.toModel.unpack
    (1.0 : Float).toModel.unpack)) = x
  rw [hproduct]
  -- This lemma alone needs the whole library; no smaller part of it imports the bits of floats.
  exact Float.ofBits_toBits x

end

/-! ## Numbers in decks -/

namespace Quantity

/-- A character that neither is an ohm sign nor begins the word. -/
def Stays (c : Char) : Prop := isOhmSign c = false ∧ foldsTo 'o' c = false

theorem stays_of_isNumeric {c : Char} (h : IsNumeric c) : Stays c := by
  rcases h with hdigit | hother
  · have hdecimal := isDecimal_of_isDigit hdigit
    obtain ⟨hlow, hhigh⟩ := Char.isDigit_iff_toNat.mp hdigit
    have hnine : '9'.toNat = 57 := rfl
    refine ⟨?_, Table.foldsTo_of_isDecimal hdecimal (by decide)⟩
    simp only [isOhmSign, Bool.or_eq_false_iff, beq_eq_false_iff_ne]
    omega
  · have hall : ∀ c ∈ ['+', '-', '.', 'e', 'E'], isOhmSign c = false ∧ foldsTo 'o' c = false :=
      List.all_iff_forall_prop.mp (by decide)
    exact hall c hother

theorem withoutOhms_cons {c : Char} (h : Stays c) (cs : List Char) :
    withoutOhms (c :: cs) = c :: withoutOhms cs := by
  obtain ⟨hsign, hletter⟩ := h
  -- The word has three or four letters, and the cases of the definition go that far.
  rcases cs with _ | ⟨h, _ | ⟨m, _ | ⟨s, rest⟩⟩⟩
  · show (if isOhmSign c then _ else c :: withoutOhms []) = _
    rw [hsign, if_neg Bool.false_ne_true]
  · show (if isOhmSign c then _ else c :: withoutOhms [h]) = _
    rw [hsign, if_neg Bool.false_ne_true]
  · show (if isOhmSign c then _ else if foldsTo 'o' c && foldsTo 'h' h && foldsTo 'm' m then _
      else c :: withoutOhms [h, m]) = _
    simp [hsign, hletter]
  · show (if isOhmSign c then _ else if foldsTo 'o' c && foldsTo 'h' h && foldsTo 'm' m then _
      else c :: withoutOhms (h :: m :: s :: rest)) = _
    simp [hsign, hletter]

theorem withoutOhms_append {cs : List Char} (h : ∀ c ∈ cs, Stays c) (rest : List Char) :
    withoutOhms (cs ++ rest) = cs ++ withoutOhms rest := by
  induction cs with
  | nil => rfl
  | cons c cs ih =>
    rw [List.cons_append, withoutOhms_cons (h c List.mem_cons_self),
      ih fun d hd => h d (List.mem_cons_of_mem c hd), List.cons_append]

theorem withoutOhms_eq {cs : List Char} (h : ∀ c ∈ cs, Stays c) : withoutOhms cs = cs := by
  have hnil : withoutOhms [] = [] := rfl
  have happend := withoutOhms_append h []
  rwa [hnil, List.append_nil] at happend

theorem filter_of_plain {cs : List Char} (h : Plain cs) :
    cs.filter (fun c => !(isBlank c || c == '_')) = cs := by
  rw [List.filter_eq_self]
  intro c hc
  obtain ⟨hblank, hbar⟩ := h c hc
  simp [hblank, hbar]

theorem condensed_text (t : Written) : condensed t.text = t.text := by
  unfold condensed
  rw [withoutOhms_eq fun c hc => stays_of_isNumeric (t.isNumeric_text c hc),
    filter_of_plain t.plain_text]

/-- A finite number in decimal form is a quantity. -/
theorem read_text {t : Written} (h : t.value.isFinite) :
    read (String.ofList t.text) = some t.value := by
  have hvalue : t.decimal.toFloat * 1.0 = t.value := mul_one_of_isFinite h
  have hfactor : factor? [] = some 1.0 := rfl
  unfold read
  rw [String.toList_ofList, condensed_text, t.scan_text]
  simp only [Option.bind_eq_bind, Option.bind_some, List.all_nil, if_true, hfactor, hvalue, h]

/-- The numbers in decks are finite numbers in decimal form, those of finite floats rounded to
twelve digits. -/
theorem exists_written_forDeck (f : Float) :
    ∃ t : Written, (forDeck f).toList = t.text ∧ t.value.isFinite ∧
      (f.isFinite → t.decimal.negative = (Decimal.significant f 12).negative ∧
        t.decimal.magnitude = (Decimal.significant f 12).magnitude) := by
  unfold forDeck Real.general
  split
  · next h =>
    obtain ⟨t, htext, hsign, hmagnitude⟩ :=
      Decimal.writes_layOut (.general 12) (Decimal.significant f 12)
    refine ⟨t, by rw [String.toList_ofList, htext], Decimal.isFinite_toFloat ?_,
      fun _ => ⟨hsign, hmagnitude⟩⟩
    rw [hmagnitude]
    exact Decimal.magnitude_significant_lt h
  · next h => exact ⟨Written.oneDigit 0, rfl, by decide +kernel, fun hfinite => absurd hfinite h⟩

theorem exists_read_forDeck (f : Float) :
    ∃ v, readFloat (forDeck f).toList = some v ∧ read (forDeck f) = some v ∧ v.isFinite ∧
      IsWord (forDeck f).toList := by
  obtain ⟨t, htext, hfinite, -⟩ := exists_written_forDeck f
  have hread := read_text hfinite
  rw [← htext, String.ofList_toList] at hread
  rw [htext]
  exact ⟨t.value, t.readFloat_text, hread, hfinite, t.isWord_text⟩

end Quantity

end Breadboard
