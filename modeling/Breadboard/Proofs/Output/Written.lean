import Breadboard.Proofs.Output.Scientific

/-!
# Written numbers

Raw files and operating points write their numbers in any decimal form: digits with or without a
sign, a point, and an exponent of ten. Such a number reads as its value where it stands alone.
-/

namespace Breadboard

open Text Numeral

/-- An exponent of ten: its letter, an optional sign and digits. -/
structure Power where
  mark : Char
  sign : Option Sign
  digits : List Char
  mark_exponent : isExponentMark mark
  digits_decimal : ∀ c ∈ digits, c.isDigit
  digits_pos : digits ≠ []

/-- A number in decimal form: an optional sign, digits with or without a point among, before or
behind them, and an optional exponent of ten. -/
structure Written where
  sign : Option Sign
  whole : List Char
  fraction : Option (List Char)
  power : Option Power
  whole_decimal : ∀ c ∈ whole, c.isDigit
  fraction_decimal : ∀ ds ∈ fraction, ∀ c ∈ ds, c.isDigit
  digits_pos : whole ++ fraction.getD [] ≠ []

namespace Power

/-- The exponent as it is written. -/
def text (p : Power) : List Char := p.mark :: ((p.sign.map Sign.char).toList ++ p.digits)

/-- The exponent as a number. -/
def value (p : Power) : Int :=
  let n : Int := Decimal.ofDigits (p.digits.filterMap digitValue?)
  if p.sign = some .minus then -n else n

end Power

namespace Written

variable (t : Written)

/-- What follows the whole digits. -/
def tail : List Char :=
  (t.fraction.map ('.' :: ·)).getD [] ++ (t.power.map Power.text).getD []

/-- The number as it is written. -/
def text : List Char := (t.sign.map Sign.char).toList ++ (t.whole ++ t.tail)

/-- The decimal that is written. -/
def decimal : Decimal :=
  Numeral.decimal (t.sign == some .minus) (t.whole.filterMap digitValue?)
    ((t.fraction.getD []).filterMap digitValue?) ((t.power.map Power.value).getD 0)

/-- The float nearest to the number. -/
def value : Float := t.decimal.toFloat

end Written

/-! ## The characters of a number -/

/-- A text that does not go on with a number: it starts with no digit, no point and no letter of an
exponent. -/
def Numeral.EndsNumeral (cs : List Char) : Prop :=
  ∀ c ∈ cs.head?, isDecimal c = false ∧ c ≠ '.' ∧ isExponentMark c = false

theorem Numeral.endsNumeral_nil : EndsNumeral [] := fun _ hc => nomatch hc

theorem sign_append {cs : List Char} (h : ∀ c ∈ cs.head?, c ∉ ['+', '-']) (s : Option Sign) :
    Numeral.sign ((s.map Sign.char).toList ++ cs) = (s == some .minus, cs) := by
  cases s with
  | some s => exact Scientific.sign_char s cs
  | none =>
    cases cs with
    | nil => rfl
    | cons c cs =>
      have hsigns : c ≠ '+' ∧ c ≠ '-' := by simpa using h c rfl
      simp [Numeral.sign, hsigns]

theorem isDecimal_of_forall {ds : List Char} (h : ∀ c ∈ ds, c.isDigit) :
    ∀ c ∈ ds, isDecimal c := fun c hc => isDecimal_of_isDigit (h c hc)

theorem not_sign_of_isDigit {c : Char} (h : c.isDigit) : c ∉ ['+', '-'] := by
  have hd := isDecimal_of_isDigit h
  simp [ne_of_isDecimal hd (d := '+') (by decide), ne_of_isDecimal hd (d := '-') (by decide)]

/-- The characters of numbers. -/
def IsNumeric (c : Char) : Prop := c.isDigit ∨ c ∈ ['+', '-', '.', 'e', 'E']

theorem isNumeric_sign {s : Option Sign} : ∀ c ∈ (s.map Sign.char).toList, IsNumeric c := by
  intro c hc
  obtain ⟨s, -, rfl⟩ := Option.map_eq_some_iff.mp (Option.mem_toList.mp hc)
  cases s <;> exact .inr (by decide)

theorem plain_of_isNumeric {cs : List Char} (h : ∀ c ∈ cs, IsNumeric c) : Plain cs := by
  intro c hc
  rcases h c hc with hd | hc
  · exact plain_of_isDecimal (List.forall_mem_singleton.mpr (isDecimal_of_isDigit hd)) c
      (List.mem_singleton_self c)
  · have hall : ∀ c ∈ ['+', '-', '.', 'e', 'E'], isBlank c = false ∧ c ≠ '_' :=
      List.all_iff_forall_prop.mp (by decide)
    exact hall c hc

namespace Power

variable (p : Power)

theorem isNumeric_text : ∀ c ∈ p.text, IsNumeric c := by
  have hmark : IsNumeric p.mark := by
    have hm := p.mark_exponent
    simp only [isExponentMark, Bool.or_eq_true, beq_iff_eq] at hm
    rcases hm with hm | hm <;> rw [hm] <;> exact .inr (by decide)
  exact List.forall_mem_cons.mpr ⟨hmark, List.forall_mem_append.mpr
    ⟨isNumeric_sign, fun c hc => .inl (p.digits_decimal c hc)⟩⟩

theorem exponent_append {rest : List Char} (h : EndsDigits rest) :
    Numeral.exponent (p.text ++ rest) = (p.value, rest) := by
  have hdigits := isDecimal_of_forall p.digits_decimal
  have hhead : ∀ c ∈ (p.digits ++ rest).head?, c ∉ ['+', '-'] := by
    obtain ⟨d, ds, hd⟩ := List.exists_cons_of_ne_nil p.digits_pos
    rw [hd]
    rintro _ ⟨⟩
    exact not_sign_of_isDigit (p.digits_decimal d (hd ▸ List.mem_cons_self))
  have hsign := sign_append hhead p.sign
  have hrun := digits_append hdigits h
  have hne := filterMap_digitValue?_ne_nil hdigits p.digits_pos
  unfold Numeral.exponent text value
  simp only [List.cons_append, List.append_assoc, p.mark_exponent, if_true, hsign, hrun, beq_iff_eq]

theorem endsDigits_append (rest : List Char) : EndsDigits (p.text ++ rest) := by
  have hm := p.mark_exponent
  simp only [isExponentMark, Bool.or_eq_true, beq_iff_eq] at hm
  refine endsDigits_cons.mpr ?_
  rcases hm with hm | hm <;> rw [hm] <;> decide

end Power

namespace Written

variable (t : Written)

theorem whole_isDecimal : ∀ c ∈ t.whole, isDecimal c := isDecimal_of_forall t.whole_decimal

theorem isNumeric_tail : ∀ c ∈ t.tail, IsNumeric c := by
  refine List.forall_mem_append.mpr ⟨?_, ?_⟩
  · cases hf : t.fraction with
    | none => exact fun _ hc => nomatch hc
    | some ds =>
      exact List.forall_mem_cons.mpr
        ⟨.inr (by decide), fun c hc => .inl (t.fraction_decimal ds hf c hc)⟩
  · cases t.power with
    | none => exact fun _ hc => nomatch hc
    | some p => exact p.isNumeric_text

/-- A number holds nothing but digits, signs, a point and the letter of its exponent. -/
theorem isNumeric_text : ∀ c ∈ t.text, IsNumeric c :=
  List.forall_mem_append.mpr ⟨isNumeric_sign, List.forall_mem_append.mpr
    ⟨fun c hc => .inl (t.whole_decimal c hc), t.isNumeric_tail⟩⟩

theorem plain_text : Plain t.text := plain_of_isNumeric t.isNumeric_text

/-- Behind the sign, a number starts with a digit or its point. -/
theorem exists_head : ∃ c more, t.whole ++ t.tail = c :: more ∧ (c.isDigit ∨ c = '.') := by
  cases hw : t.whole with
  | cons c ds => exact ⟨c, ds ++ t.tail, rfl, .inl (t.whole_decimal c (hw ▸ List.mem_cons_self))⟩
  | nil =>
    cases hf : t.fraction with
    | none => exact absurd (by rw [hw, hf]; rfl) t.digits_pos
    | some ds =>
      refine ⟨'.', ds ++ (t.power.map Power.text).getD [], ?_, .inr rfl⟩
      rw [tail, hf]
      rfl

theorem isWord_text : IsWord t.text := by
  obtain ⟨c, more, heq, -⟩ := t.exists_head
  refine ⟨?_, fun c hc => (t.plain_text c hc).1⟩
  rw [text, heq]
  simp

/-! ## Reading a number -/

section

variable {rest : List Char} (h : EndsNumeral rest)

include h

theorem exponent_power :
    Numeral.exponent ((t.power.map Power.text).getD [] ++ rest) =
      ((t.power.map Power.value).getD 0, rest) := by
  cases t.power with
  | some p => exact p.exponent_append fun c hc => (h c hc).1
  | none =>
    cases rest with
    | nil => rfl
    | cons c rest => simp [Numeral.exponent, (h c rfl).2.2]

theorem endsDigits_power : EndsDigits ((t.power.map Power.text).getD [] ++ rest) := by
  cases t.power with
  | none => exact fun c hc => (h c hc).1
  | some p => exact p.endsDigits_append rest

/-- No point opens an exponent. -/
theorem point_ne_head_power : '.' ∉ ((t.power.map Power.text).getD [] ++ rest).head? := by
  cases t.power with
  | none => exact fun hpoint => (h '.' hpoint).2.1 rfl
  | some p =>
    intro hpoint
    have hm := p.mark_exponent
    rw [show p.mark = '.' from Option.some.inj hpoint] at hm
    cases hm

theorem mantissa_append :
    mantissa (t.whole ++ (t.tail ++ rest)) = some (t.whole.filterMap digitValue?,
      (t.fraction.getD []).filterMap digitValue?, (t.power.map Power.text).getD [] ++ rest) := by
  cases hf : t.fraction with
  | none =>
    have hpos : t.whole ≠ [] := by simpa [hf] using t.digits_pos
    obtain ⟨n, ns, hn⟩ :=
      List.exists_cons_of_ne_nil (filterMap_digitValue?_ne_nil t.whole_isDecimal hpos)
    have hrun := digits_append t.whole_isDecimal (t.endsDigits_power h)
    have htail : t.tail = (t.power.map Power.text).getD [] := by
      rw [tail, hf]
      rfl
    unfold mantissa
    rw [htail, hrun, hn]
    split
    · next heq => cases heq
    · next heq => cases heq
    · next heq =>
      obtain ⟨-, hpoint⟩ := Prod.mk.inj heq
      exact absurd (by rw [hpoint]; rfl) (t.point_ne_head_power h)
    · next heq =>
      cases heq
      rfl
  | some ds =>
    have hends : EndsDigits ('.' :: (ds ++ ((t.power.map Power.text).getD [] ++ rest))) :=
      endsDigits_cons.mpr (by decide)
    have hrun := digits_append t.whole_isDecimal hends
    have hdigits := isDecimal_of_forall (t.fraction_decimal ds hf)
    have hfraction := digits_append hdigits (t.endsDigits_power h)
    have htail : t.tail ++ rest = '.' :: (ds ++ ((t.power.map Power.text).getD [] ++ rest)) := by
      rw [tail, hf, ← List.append_assoc ds]
      rfl
    unfold mantissa
    rw [htail, hrun]
    cases hn : t.whole.filterMap digitValue? with
    | cons n ns => simp only [hfraction, Option.getD_some]
    | nil =>
      -- without a digit before the point there is one behind it
      have hpos : ds ≠ [] := by
        rintro rfl
        have hwhole : t.whole ≠ [] := by simpa [hf] using t.digits_pos
        exact filterMap_digitValue?_ne_nil t.whole_isDecimal hwhole hn
      obtain ⟨m, ms, hm⟩ := List.exists_cons_of_ne_nil (filterMap_digitValue?_ne_nil hdigits hpos)
      simp only [hfraction, hm, Option.getD_some]

/-- A number is read as far as it goes. -/
theorem scan_append : scan (t.text ++ rest) = some (t.decimal, rest) := by
  have hhead : ∀ c ∈ (t.whole ++ (t.tail ++ rest)).head?, c ∉ ['+', '-'] := by
    obtain ⟨d, more, heq, hd⟩ := t.exists_head
    rw [← List.append_assoc, heq]
    rintro _ ⟨⟩
    rcases hd with hdigit | rfl
    · exact not_sign_of_isDigit hdigit
    · decide
  have hsign := sign_append hhead t.sign
  unfold scan text decimal
  simp only [List.append_assoc, hsign, t.mantissa_append h, t.exponent_power h]

end

theorem scan_text : scan t.text = some (t.decimal, []) := by
  have happend := t.scan_append endsNumeral_nil
  rwa [List.append_nil] at happend

theorem readFloat_text : readFloat t.text = some t.value :=
  readFloat_of_scan t.plain_text t.scan_text

theorem readFinite_text (h : t.value.isFinite) : readFinite t.text = some t.value := by
  rw [readFinite, t.readFloat_text, Option.filter_some, if_pos h]

theorem isDigit_digitChar_mod (n : Nat) : (Nat.digitChar (n % 10)).isDigit :=
  (by decide : ∀ d < 10, (Nat.digitChar d).isDigit) _ (Nat.mod_lt n (by decide))

/-- The number of one digit, the last of a number. -/
def oneDigit (n : Nat) : Written where
  sign := none
  whole := [Nat.digitChar (n % 10)]
  fraction := none
  power := none
  whole_decimal := List.forall_mem_singleton.mpr (isDigit_digitChar_mod n)
  fraction_decimal _ h := nomatch h
  digits_pos := List.cons_ne_nil _ _

/-- A number with a sign, a point and an exponent. -/
def scaled : Written where
  sign := some .minus
  whole := ['4']
  fraction := some ['5']
  power := some ⟨'E', some .minus, ['3'], by decide, List.forall_mem_singleton.mpr (by decide),
    List.cons_ne_nil _ _⟩
  whole_decimal := List.forall_mem_singleton.mpr (by decide)
  fraction_decimal ds h := by
    obtain rfl : ['5'] = ds := Option.some.inj h
    exact List.forall_mem_singleton.mpr (by decide)
  digits_pos := List.cons_ne_nil _ _

/-- A number without a digit before its point. -/
def half : Written where
  sign := none
  whole := []
  fraction := some ['5']
  power := none
  whole_decimal _ h := nomatch h
  fraction_decimal ds h := by
    obtain rfl : ['5'] = ds := Option.some.inj h
    exact List.forall_mem_singleton.mpr (by decide)
  digits_pos := List.cons_ne_nil _ _

end Written

end Breadboard
