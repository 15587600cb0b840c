import Breadboard.Output.Row
import Breadboard.Proofs.Decimal.Numeral
import Mathlib.Data.Bool.AllAny

/-!
# Numbers in scientific form

Printed tables write their numbers with one digit before the point and an exponent of two or three
digits. Such a number reads as its value where it stands alone, and also where other numbers follow
it without anything between.
-/

namespace Breadboard

open Text Numeral

/-- The sign of a number or of an exponent. -/
inductive Sign where
  | plus
  | minus
  deriving DecidableEq

/-- How a sign is written. -/
def Sign.char : Sign → Char
  | .plus => '+'
  | .minus => '-'

/-- A number as a printed table writes it: an optional sign, one digit, a point, at least one
digit, the letter e, a sign and two or three digits. -/
structure Scientific where
  sign : Option Sign
  whole : Char
  fraction : List Char
  exponentSign : Sign
  exponent : List Char
  whole_digit : isDecimal whole
  fraction_digits : ∀ c ∈ fraction, isDecimal c
  fraction_pos : fraction ≠ []
  exponent_digits : ∀ c ∈ exponent, isDecimal c
  exponent_size : exponent.length = 2 ∨ exponent.length = 3

namespace Scientific

variable (t : Scientific)

/-- What follows the point. -/
def tail : List Char := t.fraction ++ 'e' :: t.exponentSign.char :: t.exponent

/-- The number without its sign. -/
def unsigned : List Char := t.whole :: '.' :: t.tail

/-- The number as it is written. -/
def text : List Char := (t.sign.map Sign.char).toList ++ t.unsigned

/-- Whether the number is below zero or a negative zero. -/
def negative : Bool := t.sign == some .minus

/-- The exponent of ten. -/
def power : Int :=
  let n : Int := Decimal.ofDigits (t.exponent.filterMap digitValue?)
  if t.exponentSign = .minus then -n else n

/-- The decimal that is written. -/
def decimal : Decimal :=
  Numeral.decimal t.negative ([t.whole].filterMap digitValue?)
    (t.fraction.filterMap digitValue?) t.power

/-- The float nearest to the number. -/
def value : Float := t.decimal.toFloat

/-! ## The characters of a number -/

theorem exponent_pos : t.exponent ≠ [] := by
  intro h
  have := t.exponent_size
  rw [h, List.length_nil] at this
  omega

theorem isDecimal_or_of_mem_text {c : Char} (h : c ∈ t.text) :
    isDecimal c ∨ c ∈ ['+', '-', '.', 'e'] := by
  have hsign : ∀ s : Sign, s.char ∈ ['+', '-', '.', 'e'] := by
    intro s
    cases s <;> decide
  unfold text unsigned tail at h
  simp only [List.mem_append, List.mem_cons, Option.mem_toList, Option.map_eq_some_iff] at h
  rcases h with ⟨s, -, rfl⟩ | rfl | rfl | hc | rfl | rfl | hc
  · exact .inr (hsign s)
  · exact .inl t.whole_digit
  · exact .inr (by decide)
  · exact .inl (t.fraction_digits c hc)
  · exact .inr (by decide)
  · exact .inr (hsign _)
  · exact .inl (t.exponent_digits c hc)

theorem plain_text : Plain t.text := by
  intro c hc
  rcases t.isDecimal_or_of_mem_text hc with hdigit | hother
  · exact plain_of_isDecimal (List.forall_mem_singleton.mpr hdigit) c (List.mem_singleton_self c)
  · have hall : ∀ c ∈ ['+', '-', '.', 'e'], isBlank c = false ∧ c ≠ '_' :=
      List.all_iff_forall_prop.mp (by decide)
    exact hall c hother

theorem isWord_text : IsWord t.text := by
  refine ⟨?_, fun c hc => (t.plain_text c hc).1⟩
  unfold text unsigned
  simp

theorem char_ne_point (s : Sign) : s.char ≠ '.' := by
  cases s <;> decide

theorem count_text : t.text.count '.' = 1 := by
  have hsign : ((t.sign.map Sign.char).toList).count '.' = 0 := by
    rw [List.count_eq_zero]
    intro h
    obtain ⟨s, -, hs⟩ := Option.map_eq_some_iff.mp (Option.mem_toList.mp h)
    exact char_ne_point s hs
  unfold text unsigned tail
  rw [List.count_append, hsign, List.count_cons_of_ne (ne_of_isDecimal t.whole_digit (by decide)),
    List.count_cons_self, List.count_append, count_of_isDecimal t.fraction_digits,
    List.count_cons_of_ne (by decide), List.count_cons_of_ne (char_ne_point _),
    count_of_isDecimal t.exponent_digits]

/-! ## Reading the parts -/

theorem sign_char (s : Sign) (cs : List Char) :
    Numeral.sign (s.char :: cs) = (s == .minus, cs) := by
  cases s <;> rfl

theorem sign_text (more : List Char) :
    Numeral.sign (t.text ++ more) = (t.negative, t.unsigned ++ more) := by
  unfold text negative
  cases t.sign with
  | none => exact sign_of_isDecimal t.whole_digit _
  | some s => exact sign_char s _

theorem digits_unsigned (more : List Char) :
    digits (t.unsigned ++ more) = ([t.whole].filterMap digitValue?, '.' :: (t.tail ++ more)) :=
  digits_append (List.forall_mem_singleton.mpr t.whole_digit) (endsDigits_cons.mpr (by decide))

theorem digits_tail (more : List Char) :
    digits (t.tail ++ more) = (t.fraction.filterMap digitValue?,
      'e' :: t.exponentSign.char :: (t.exponent ++ more)) := by
  unfold tail
  rw [List.append_assoc]
  exact digits_append t.fraction_digits (endsDigits_cons.mpr (by decide))

/-! ## A number that stands alone -/

theorem exponent_tail :
    Numeral.exponent ('e' :: t.exponentSign.char :: t.exponent) = (t.power, []) := by
  have hdigits := digits_append t.exponent_digits endsDigits_nil
  have hne := filterMap_digitValue?_ne_nil t.exponent_digits t.exponent_pos
  rw [List.append_nil] at hdigits
  unfold Numeral.exponent power
  simp only [show isExponentMark 'e' = true from rfl, if_true, sign_char, hdigits, beq_iff_eq]

theorem scan_text : scan t.text = some (t.decimal, []) := by
  have hwhole := filterMap_digitValue?_ne_nil (List.forall_mem_singleton.mpr t.whole_digit)
    (List.cons_ne_nil _ _)
  have hsign := t.sign_text []
  have hunsigned := t.digits_unsigned []
  have htail := t.digits_tail []
  rw [List.append_nil] at hsign hunsigned htail
  rw [List.append_nil] at hsign hunsigned htail
  have hmantissa : mantissa t.unsigned = some ([t.whole].filterMap digitValue?,
      t.fraction.filterMap digitValue?, 'e' :: t.exponentSign.char :: t.exponent) := by
    unfold mantissa
    rw [hunsigned]
    obtain ⟨n, ns, hn⟩ := List.exists_cons_of_ne_nil hwhole
    rw [hn]
    simp only [htail]
  unfold scan
  simp only [hsign, hmantissa, exponent_tail]
  rfl

theorem readFloat_text : readFloat t.text = some t.value :=
  readFloat_of_scan t.plain_text t.scan_text

/-! ## A number in front of others -/

/-- A text that is empty or goes on with a number. -/
def Continues (cs : List Char) : Prop :=
  cs = [] ∨ ∃ (t : Scientific) (rest : List Char), cs = t.text ++ rest

/-- Numbers in a row go on with a number until they end. -/
theorem continues_flatten (ts : List Scientific) : Continues (ts.map text).flatten := by
  cases ts with
  | nil => exact .inl rfl
  | cons t ts => exact .inr ⟨t, _, by rw [List.map_cons, List.flatten_cons]⟩

/-- What goes on with a number either has no digit first, or just one digit before its point. -/
theorem Continues.cases {cs : List Char} (h : Continues cs) :
    Row.pointNext cs = false ∧
      (EndsDigits cs ∨ ∃ d rest, isDecimal d ∧ cs = d :: '.' :: rest) := by
  rcases h with rfl | ⟨t, rest, rfl⟩
  · exact ⟨rfl, .inl endsDigits_nil⟩
  · unfold text
    cases t.sign with
    | none =>
      refine ⟨?_, .inr ⟨t.whole, t.tail ++ rest, t.whole_digit, rfl⟩⟩
      have hne : t.whole ≠ '.' := ne_of_isDecimal t.whole_digit (by decide)
      simp [Row.pointNext, unsigned, hne]
    | some s => cases s <;> exact ⟨rfl, .inl (endsDigits_cons.mpr (by decide))⟩

/-- The digits of an exponent end before the next number, whose first digit stands before a point.
-/
theorem joinedExponentDigits_append {more : List Char} (h : Continues more) :
    Row.joinedExponentDigits (t.exponent ++ more) = some (t.exponent, more) := by
  obtain ⟨hpoint, hfirst⟩ := h.cases
  have hlen : t.exponent.length ≤ ((t.exponent ++ more).takeWhile isDecimal).length := by
    rw [List.takeWhile_append_of_pos t.exponent_digits, List.length_append]
    omega
  have htake : (t.exponent ++ more).take t.exponent.length = t.exponent := List.take_left
  have hdrop : (t.exponent ++ more).drop t.exponent.length = more := List.drop_left
  unfold Row.joinedExponentDigits
  simp only
  rcases t.exponent_size with hsize | hsize
  · rw [hsize] at hlen htake hdrop
    -- a third digit belongs to the next number: its point follows
    have hthree : ¬ (3 ≤ ((t.exponent ++ more).takeWhile isDecimal).length ∧
        (!Row.pointNext ((t.exponent ++ more).drop 3)) = true) := by
      rintro ⟨hrun, hno⟩
      rcases hfirst with hends | ⟨d, rest, -, rfl⟩
      · rw [takeWhile_append t.exponent_digits hends] at hrun
        omega
      · rw [show 3 = 2 + 1 from rfl, ← List.drop_drop, hdrop] at hno
        cases hno
    rw [if_neg hthree, htake, hdrop, hpoint, if_pos ⟨hlen, rfl⟩]
  · rw [hsize] at hlen htake hdrop
    rw [htake, hdrop, hpoint, if_pos ⟨hlen, rfl⟩]

/-- In front of others, a number reads as its decimal and leaves the others. -/
theorem joinedValue_append {more : List Char} (h : Continues more) :
    Row.joinedValue (t.text ++ more) = some (t.decimal, more) := by
  obtain ⟨n, hn⟩ := exists_digitValue? t.whole_digit
  obtain ⟨f, fs, hf⟩ := List.exists_cons_of_ne_nil
    (filterMap_digitValue?_ne_nil t.fraction_digits t.fraction_pos)
  have hexponent : Row.joinedExponent ('e' :: t.exponentSign.char :: (t.exponent ++ more)) =
      (t.power, more) := by
    unfold Row.joinedExponent power
    simp only [show isExponentMark 'e' = true from rfl, if_true, sign_char,
      t.joinedExponentDigits_append h, beq_iff_eq]
  unfold Row.joinedValue decimal
  simp only [t.sign_text, unsigned, List.cons_append, hn, t.digits_tail, hf, hexponent]
  simp [hn]

end Scientific

end Breadboard
