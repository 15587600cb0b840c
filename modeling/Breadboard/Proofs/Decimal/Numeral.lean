import Breadboard.Decimal.Numeral
import Breadboard.Proofs.Text.Words
import Mathlib.Data.List.TakeWhile

/-!
# Reading numerals

What the readers of numerals do on runs of digits and on texts without blanks and underscores. No
numeral holds two points, and no whole number holds one, so numbers that run together are not
taken for one number.
-/

namespace Breadboard

namespace Text

/-! ## Digits and blanks -/

/-- All blanks. -/
def blanks : List Char :=
  ([9, 10, 11, 12, 13, 28, 29, 30, 31, 32, 0x85, 0xA0, 0x1680, 0x2000, 0x2001, 0x2002, 0x2003,
    0x2004, 0x2005, 0x2006, 0x2007, 0x2008, 0x2009, 0x200A, 0x2028, 0x2029, 0x202F, 0x205F,
    0x3000] : List Nat).map Char.ofNat

theorem mem_blanks_of_isBlank {c : Char} (h : isBlank c) : c ∈ blanks := by
  refine List.mem_map.mpr ⟨c.toNat, ?_, Char.ofNat_toNat c⟩
  simp only [isBlank, Bool.or_eq_true, Bool.and_eq_true, decide_eq_true_eq, beq_iff_eq] at h
  simp only [List.mem_cons, List.not_mem_nil, or_false]
  omega

theorem isDecimal_of_isBlank {c : Char} (h : isBlank c) : isDecimal c = false := by
  have hall : blanks.all fun c => !isDecimal c := by decide +kernel
  simpa using List.all_eq_true.mp hall c (mem_blanks_of_isBlank h)

theorem isBlank_of_isDecimal {c : Char} (h : isDecimal c) : isBlank c = false := by
  cases hb : isBlank c with
  | false => rfl
  | true => rw [isDecimal_of_isBlank hb] at h; cases h

theorem ne_of_isDecimal {c d : Char} (hc : isDecimal c) (hd : isDecimal d = false) : c ≠ d := by
  rintro rfl
  rw [hc] at hd
  cases hd

theorem exists_digitValue? {c : Char} (h : isDecimal c) : ∃ n, digitValue? c = some n :=
  Option.isSome_iff_exists.mp h

theorem length_filterMap_digitValue? {ds : List Char} (h : ∀ c ∈ ds, isDecimal c) :
    (ds.filterMap digitValue?).length = ds.length := by
  induction ds with
  | nil => rfl
  | cons d ds ih =>
    obtain ⟨n, hn⟩ := exists_digitValue? (h d List.mem_cons_self)
    rw [List.filterMap_cons_some hn, List.length_cons, List.length_cons,
      ih fun c hc => h c (List.mem_cons_of_mem d hc)]

theorem filterMap_digitValue?_ne_nil {ds : List Char} (h : ∀ c ∈ ds, isDecimal c)
    (hne : ds ≠ []) : ds.filterMap digitValue? ≠ [] := by
  intro hnil
  have := length_filterMap_digitValue? h
  rw [hnil, List.length_nil] at this
  exact hne (List.length_eq_zero_iff.mp this.symm)

end Text

namespace Numeral

open Text

/-- A text whose first character, if there is one, is no digit. -/
def EndsDigits (cs : List Char) : Prop := ∀ c ∈ cs.head?, isDecimal c = false

@[simp] theorem endsDigits_nil : EndsDigits [] := by
  intro c hc
  cases hc

@[simp] theorem endsDigits_cons {c : Char} {cs : List Char} :
    EndsDigits (c :: cs) ↔ isDecimal c = false := by
  simp [EndsDigits]

theorem takeWhile_append {ds rest : List Char} (h : ∀ c ∈ ds, isDecimal c)
    (hr : EndsDigits rest) : (ds ++ rest).takeWhile isDecimal = ds := by
  rw [List.takeWhile_append_of_pos h]
  cases rest with
  | nil => simp
  | cons c cs =>
    rw [endsDigits_cons] at hr
    simp [hr]

theorem dropWhile_append {ds rest : List Char} (h : ∀ c ∈ ds, isDecimal c)
    (hr : EndsDigits rest) : (ds ++ rest).dropWhile isDecimal = rest := by
  rw [List.dropWhile_append_of_pos h]
  cases rest with
  | nil => rfl
  | cons c cs =>
    rw [endsDigits_cons] at hr
    simp [hr]

theorem digits_append {ds rest : List Char} (h : ∀ c ∈ ds, isDecimal c)
    (hr : EndsDigits rest) : digits (ds ++ rest) = (ds.filterMap digitValue?, rest) := by
  rw [digits, takeWhile_append h hr, dropWhile_append h hr]

theorem exists_of_digits {cs rest : List Char} {values : List Nat}
    (h : digits cs = (values, rest)) :
    ∃ run, cs = run ++ rest ∧ (∀ c ∈ run, isDecimal c) ∧ run.filterMap digitValue? = values := by
  unfold digits at h
  cases h
  exact ⟨cs.takeWhile isDecimal, List.takeWhile_append_dropWhile.symm,
    List.all_eq_true.mp List.all_takeWhile, rfl⟩

theorem sign_of_isDecimal {d : Char} (hd : isDecimal d) (cs : List Char) :
    sign (d :: cs) = (false, d :: cs) := by
  have hminus : d ≠ '-' := ne_of_isDecimal hd (by decide)
  have hplus : d ≠ '+' := ne_of_isDecimal hd (by decide)
  simp [sign, hminus, hplus]

/-! ## Texts without blanks and underscores -/

/-- A text that holds no blank and no underscore. -/
def Plain (cs : List Char) : Prop := ∀ c ∈ cs, isBlank c = false ∧ c ≠ '_'

theorem plain_of_isDecimal {ds : List Char} (h : ∀ c ∈ ds, isDecimal c) : Plain ds := by
  intro c hc
  exact ⟨isBlank_of_isDecimal (h c hc), ne_of_isDecimal (h c hc) (by decide)⟩

theorem dropWhile_isPadding {cs : List Char} (h : Plain cs) : cs.dropWhile isPadding = cs := by
  cases cs with
  | nil => rfl
  | cons c cs =>
    rw [List.dropWhile_cons_of_neg]
    simp [isPadding, (h c List.mem_cons_self).1]

theorem unpadded_of_plain {cs : List Char} (h : Plain cs) : unpadded cs = cs := by
  have hr : Plain cs.reverse := fun c hc => h c (List.mem_reverse.mp hc)
  rw [unpadded, dropWhile_isPadding h, dropWhile_isPadding hr, List.reverse_reverse]

theorem joinGroups_of_plain {cs : List Char} (h : Plain cs) (b : Bool) :
    joinGroups b cs = some cs := by
  induction cs generalizing b with
  | nil => rfl
  | cons c cs ih =>
    have hc := (h c List.mem_cons_self).2
    have hcs : Plain cs := fun d hd => h d (List.mem_cons_of_mem c hd)
    simp [joinGroups, hc, ih hcs]

theorem readFloat_of_scan {cs : List Char} {d : Decimal} (hplain : Plain cs)
    (h : scan cs = some (d, [])) : readFloat cs = some d.toFloat := by
  unfold readFloat
  rw [unpadded_of_plain hplain, joinGroups_of_plain hplain, Option.bind_eq_bind, Option.bind_some,
    h]

/-! ## Whole numbers -/

/-- A run of digits of which there are not too many reads as the number it writes. -/
theorem readInt_digits {ds : List Char} (h : ∀ c ∈ ds, isDecimal c) (hne : ds ≠ [])
    (hlen : ds.length ≤ maxDigits) :
    readInt ds = .ok (Decimal.ofDigits (ds.filterMap digitValue?)) := by
  obtain ⟨d, ds', rfl⟩ := List.exists_cons_of_ne_nil hne
  have hrun : ∀ c ∈ d :: ds', (isDecimal c || c == '_') = true := fun c hc => by simp [h c hc]
  have hvalues := filterMap_digitValue?_ne_nil h hne
  rw [← length_filterMap_digitValue? h] at hlen
  have hplain := plain_of_isDecimal h
  have htake := List.takeWhile_eq_self_iff.mpr hrun
  have hdrop := List.dropWhile_eq_nil_iff.mpr hrun
  unfold readInt wellGrouped
  rw [unpadded_of_plain hplain, sign_of_isDecimal (h d List.mem_cons_self)]
  simp only [htake, hdrop, natural_ok hlen, joinGroups_of_plain hplain]
  simp [hvalues]

/-! ## Points -/

theorem count_of_isDecimal {ds : List Char} (h : ∀ c ∈ ds, isDecimal c) : ds.count '.' = 0 := by
  rw [List.count_eq_zero]
  intro hpoint
  exact absurd (h '.' hpoint) (by decide)

theorem count_digits (cs : List Char) : (digits cs).2.count '.' = cs.count '.' := by
  have hrun : (cs.takeWhile isDecimal).count '.' = 0 :=
    count_of_isDecimal fun _ hc => List.mem_takeWhile_imp hc
  calc (cs.dropWhile isDecimal).count '.'
      = (cs.takeWhile isDecimal ++ cs.dropWhile isDecimal).count '.' := by
        rw [List.count_append, hrun, Nat.zero_add]
    _ = cs.count '.' := by rw [List.takeWhile_append_dropWhile]

theorem count_sign (cs : List Char) : (sign cs).2.count '.' = cs.count '.' := by
  unfold sign
  split
  · rw [List.count_cons_of_ne (by decide)]
  · rw [List.count_cons_of_ne (by decide)]
  · rfl

theorem count_exponent (cs : List Char) : (exponent cs).2.count '.' = cs.count '.' := by
  cases cs with
  | nil => rfl
  | cons c rest =>
    unfold exponent
    by_cases hmark : isExponentMark c
    · have hc : c ≠ '.' := by rintro rfl; exact absurd hmark (by decide)
      have hrest := (count_digits (sign rest).2).trans (count_sign rest)
      simp only [hmark, if_true]
      split
      · rfl
      · next heq =>
        rw [heq] at hrest
        rw [List.count_cons_of_ne hc]
        exact hrest
    · simp only [hmark]
      rfl

theorem count_mantissa {cs rest : List Char} {whole fraction : List Nat}
    (h : mantissa cs = some (whole, fraction, rest)) :
    cs.count '.' ≤ rest.count '.' + 1 := by
  have hdigits := count_digits cs
  unfold mantissa at h
  split at h
  · next tail heq =>
    have htail := count_digits tail
    rw [heq, List.count_cons_self] at hdigits
    split at h
    · cases h
    · next after _ heq' =>
      cases h
      rw [heq'] at htail
      simp only at htail
      omega
  · cases h
  · next tail _ heq =>
    have htail := count_digits tail
    rw [heq, List.count_cons_self] at hdigits
    simp only [Option.some.injEq, Prod.mk.injEq] at h
    rw [h.2.2] at htail
    omega
  · next after _ _ heq =>
    cases h
    rw [heq] at hdigits
    simp only at hdigits
    omega

theorem count_scan {cs rest : List Char} {d : Decimal} (h : scan cs = some (d, rest)) :
    cs.count '.' ≤ rest.count '.' + 1 := by
  have hsign := count_sign cs
  simp only [scan] at h
  split at h
  · cases h
  · next whole fraction tail heq =>
    have hmantissa := count_mantissa heq
    have hexponent := count_exponent tail
    simp only [Option.some.injEq, Prod.mk.injEq] at h
    rw [h.2] at hexponent
    omega

theorem count_special {cs : List Char} {f : Float} (h : special cs = some f) :
    cs.count '.' = 0 := by
  rw [List.count_eq_zero]
  intro hpoint
  have hlow : '.' ∈ cs.map Char.toLower := List.mem_map.mpr ⟨'.', hpoint, by decide⟩
  simp only [special] at h
  split at h
  · next heq => rcases heq with heq | heq <;> rw [heq] at hlow <;> exact absurd hlow (by decide)
  · split at h
    · next heq => rw [heq] at hlow; exact absurd hlow (by decide)
    · cases h

/-- A text that reads as a float holds at most one point. -/
theorem count_of_readFloat {cs : List Char} {f : Float} (hp : Plain cs)
    (h : readFloat cs = some f) : cs.count '.' ≤ 1 := by
  unfold readFloat at h
  rw [unpadded_of_plain hp, joinGroups_of_plain hp, Option.bind_eq_bind, Option.bind_some] at h
  split at h
  · next heq => exact count_scan heq
  · have hsign := count_sign cs
    cases hs : sign cs with
    | mk negative unsigned =>
      rw [hs] at h hsign
      obtain ⟨g, hg, _⟩ := Option.map_eq_some_iff.mp h
      rw [count_special hg] at hsign
      omega

theorem count_of_readInt {cs : List Char} {n : Int} (hp : Plain cs)
    (h : readInt cs = .ok n) : cs.count '.' = 0 := by
  rw [← count_sign cs, List.count_eq_zero]
  intro hpoint
  simp only [readInt, unpadded_of_plain hp] at h
  split at h
  · cases h
  · split at h
    · cases h
    · split at h
      · next hall =>
        rw [List.isEmpty_iff, List.dropWhile_eq_nil_iff] at hall
        exact absurd (hall '.' hpoint) (by decide)
      · cases h

end Numeral

end Breadboard
