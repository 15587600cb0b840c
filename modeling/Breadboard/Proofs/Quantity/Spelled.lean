import Breadboard.Proofs.Decimal.Printed
import Breadboard.Proofs.Quantity.Totality

/-!
# Quantities as they are written

A quantity is written as a number, a prefix and a unit, with blanks and underscores anywhere around
them. Prefixes and units share letters, and the ohms are left out before anything is read, yet every
such text is read as its number with its own prefix, and can be taken apart in no other way.
-/

namespace Breadboard.Quantity

open Text Numeral

/-! ## Prefixes and units -/

/-- The prefixes. -/
inductive Scale where
  | one | tera | giga | mega | kilo | milli | micro | nano | pico | femto
  deriving DecidableEq

/-- The factor of a prefix. -/
def Scale.factor : Scale → Float
  | .one => 1.0
  | .tera => 1e12
  | .giga => 1e9
  | .mega => 1e6
  | .kilo => 1e3
  | .milli => 1e-3
  | .micro => 1e-6
  | .nano => 1e-9
  | .pico => 1e-12
  | .femto => 1e-15

/-- The units, one of which is none. -/
inductive Measure where
  | bare | volt | ampere | henry | hertz | second | farad | ohm
  deriving DecidableEq

/-- A word of small letters with each letter small or capital. -/
def casings : List Char → List (List Char)
  | [] => [[]]
  | c :: cs => (casings cs).flatMap fun rest => [c :: rest, c.toUpper :: rest]

/-- How a prefix is written: mega and milli with one letter differ by case, the others do not. -/
def Scale.spellings : Scale → List (List Char)
  | .one => [[]]
  | .tera => casings ['t']
  | .giga => casings ['g']
  | .mega => ['M'] :: casings "meg".toList
  | .kilo => casings ['k']
  | .milli => [['m']]
  | .micro => casings ['u'] ++ [['µ'], ['μ']]
  | .nano => casings ['n']
  | .pico => casings ['p']
  | .femto => casings ['f']

/-- How a unit is written: a farad is a capital letter, and ohms are a sign or a word. -/
def Measure.spellings : Measure → List (List Char)
  | .bare => [[]]
  | .volt => casings ['v']
  | .ampere => casings ['a']
  | .henry => casings ['h']
  | .hertz => casings "hz".toList
  | .second => casings ['s']
  | .farad => [['F']]
  | .ohm => [['Ω'], ['Ω'], ['ω']] ++ casings "ohm".toList ++ casings "ohms".toList

/-- What may stand between the parts of a quantity. -/
def IsGap (cs : List Char) : Prop := ∀ c ∈ cs, isBlank c ∨ c = '_'

/-- A quantity as it is written. A capital F is a farad unless a unit in letters follows it. -/
structure Spelled where
  number : Written
  scale : Scale
  unit : Measure
  scaleText : List Char
  unitText : List Char
  before : List Char
  afterNumber : List Char
  afterScale : List Char
  after : List Char
  scale_spelled : scaleText ∈ scale.spellings
  unit_spelled : unitText ∈ unit.spellings
  capital_femto : scaleText = ['F'] → unit ≠ .bare ∧ unit ≠ .ohm
  before_gap : IsGap before
  afterNumber_gap : IsGap afterNumber
  afterScale_gap : IsGap afterScale
  after_gap : IsGap after

namespace Spelled

variable (q : Spelled)

/-- The text of a quantity. -/
def text : List Char :=
  q.before ++ (q.number.text ++ (q.afterNumber ++ (q.scaleText ++
    (q.afterScale ++ (q.unitText ++ q.after)))))

/-- The value of a quantity, which need not be finite. -/
def value : Float := q.number.value * q.scale.factor

/-- The letters of the unit that are read: ohms are left out. -/
def unitLetters : List Char := if q.unit = .ohm then [] else q.unitText

end Spelled

/-! ## What is left for reading -/

instance (c : Char) : Decidable (Stays c) :=
  inferInstanceAs (Decidable (_ ∧ _))

theorem gap_facts {c : Char} (h : isBlank c ∨ c = '_') : Stays c ∧ foldsTo 's' c = false := by
  rcases h with hblank | rfl
  · have hall : blanks.all fun c => decide (Stays c) && !foldsTo 's' c := by decide +kernel
    simpa using List.all_eq_true.mp hall c (mem_blanks_of_isBlank hblank)
  · decide

namespace IsGap

variable {cs : List Char} (h : IsGap cs)

include h

theorem stays : ∀ c ∈ cs, Stays c := fun c hc => (gap_facts (h c hc)).1

/-- Nothing of a gap is left for reading. -/
theorem filter_eq_nil : (cs.filter fun c => !(isBlank c || c == '_')) = [] := by
  refine List.filter_eq_nil_iff.mpr fun c hc => ?_
  rcases h c hc with hblank | rfl
  · simp [hblank]
  · decide

end IsGap

/-! ## Letters -/

/-- A letter that is read behind a number. -/
def isReadLetter (c : Char) : Bool :=
  isSuffixLetter c && !(isBlank c || c == '_') && decide (Stays c)

/-- Letters that are read behind a number, the first of which goes on with no numeral. -/
def IsReadWord (cs : List Char) : Prop :=
  cs.all isReadLetter && cs.head?.all fun c => !isDecimal c && c != '.' && !isExponentMark c

instance (cs : List Char) : Decidable (IsReadWord cs) :=
  inferInstanceAs (Decidable (_ = true))

namespace IsReadWord

variable {cs : List Char} (h : IsReadWord cs)

include h

theorem facts : ∀ c ∈ cs, isSuffixLetter c ∧ (isBlank c = false ∧ c ≠ '_') ∧ Stays c := by
  intro c hc
  have hletter := List.all_eq_true.mp (Bool.and_eq_true_iff.mp h).1 c hc
  simpa [isReadLetter, and_assoc] using hletter

theorem all_isSuffixLetter : cs.all isSuffixLetter :=
  List.all_eq_true.mpr fun c hc => (facts h c hc).1

theorem plain : Plain cs := fun c hc => (facts h c hc).2.1

theorem stays : ∀ c ∈ cs, Stays c := fun c hc => (facts h c hc).2.2

theorem endsNumeral : EndsNumeral cs := by
  intro c hc
  have hhead := (Bool.and_eq_true_iff.mp h).2
  rw [Option.mem_def.mp hc] at hhead
  simpa [and_assoc] using hhead

end IsReadWord

theorem Scale.isReadWord (s : Scale) : ∀ cs ∈ s.spellings, IsReadWord cs := by
  cases s <;> decide +kernel

theorem Measure.isReadWord {u : Measure} (hu : u ≠ .ohm) : ∀ us ∈ u.spellings, IsReadWord us := by
  cases u with
  | ohm => exact absurd rfl hu
  | _ => decide +kernel

/-! ## Ohms -/

/-- How ohms are left out: as one sign, or as a word of three or four letters. -/
def isOhmWord : List Char → Bool
  | [c] => isOhmSign c
  | [o, h, m] => !isOhmSign o && (foldsTo 'o' o && foldsTo 'h' h && foldsTo 'm' m)
  | [o, h, m, s] =>
    !isOhmSign o && (foldsTo 'o' o && foldsTo 'h' h && foldsTo 'm' m) && foldsTo 's' s
  | _ => false

theorem isOhmWord_of_mem : ∀ cs ∈ Measure.ohm.spellings, isOhmWord cs := by decide +kernel

theorem withoutOhms_sign {c : Char} (h : isOhmSign c) (cs : List Char) :
    withoutOhms (c :: cs) = withoutOhms cs := by
  rcases cs with _ | ⟨_, _ | ⟨_, _ | _⟩⟩ <;> exact if_pos h

/-- The word ends the text, or takes one more letter with it. -/
theorem withoutOhms_word {o h m : Char} (hsign : isOhmSign o = false)
    (hword : foldsTo 'o' o && foldsTo 'h' h && foldsTo 'm' m) :
    withoutOhms [o, h, m] = [] ∧ ∀ s rest, withoutOhms (o :: h :: m :: s :: rest) =
      if foldsTo 's' s then withoutOhms rest else withoutOhms (s :: rest) := by
  constructor
  · show (if isOhmSign o then _ else if foldsTo 'o' o && foldsTo 'h' h && foldsTo 'm' m then []
      else o :: withoutOhms [h, m]) = _
    rw [hsign, hword]
    rfl
  · intro s rest
    show (if isOhmSign o then _ else if foldsTo 'o' o && foldsTo 'h' h && foldsTo 'm' m then
      if foldsTo 's' s then withoutOhms rest else withoutOhms (s :: rest)
      else o :: withoutOhms (h :: m :: s :: rest)) = _
    rw [hsign, hword]
    rfl

theorem withoutOhms_ohms {word gap : List Char} (hword : isOhmWord word) (hgap : IsGap gap) :
    withoutOhms (word ++ gap) = gap := by
  have hrest := withoutOhms_eq hgap.stays
  unfold isOhmWord at hword
  split at hword
  · rw [List.singleton_append, withoutOhms_sign hword, hrest]
  · obtain ⟨hsign, hletters⟩ := Bool.and_eq_true_iff.mp hword
    obtain ⟨hnil, hcons⟩ := withoutOhms_word (Bool.not_eq_eq_eq_not.mp hsign) hletters
    cases gap with
    | nil => exact hnil
    | cons c gap =>
      have hc := (gap_facts (hgap c List.mem_cons_self)).2
      rw [List.cons_append, List.cons_append, List.singleton_append, hcons, hc,
        if_neg Bool.false_ne_true, hrest]
  · obtain ⟨hword, hs⟩ := Bool.and_eq_true_iff.mp hword
    obtain ⟨hsign, hletters⟩ := Bool.and_eq_true_iff.mp hword
    obtain ⟨-, hcons⟩ := withoutOhms_word (Bool.not_eq_eq_eq_not.mp hsign) hletters
    rw [List.cons_append, List.cons_append, List.cons_append, List.singleton_append, hcons,
      if_pos hs, hrest]
  · cases hword

/-! ## The factor of a suffix -/

section

/-- The letters of a unit, of which there may be none. -/
def EndsUnit (us : List Char) : Prop := us.isEmpty || isUnit us

theorem endsUnit_of_mem {u : Measure} (hu : u ≠ .ohm) : ∀ us ∈ u.spellings, EndsUnit us := by
  unfold EndsUnit
  cases u with
  | ohm => exact absurd rfl hu
  | _ => decide

variable {us : List Char} (hu : EndsUnit us)

theorem lowerAscii_of_isUnit (h : isUnit us) :
    lowerAscii us ∈ [['f'], "hz".toList, ['v'], ['a'], ['h'], ['s']] := by
  simp only [isUnit, Bool.or_eq_true, beq_iff_eq] at h
  rcases h with rfl | h
  · decide
  · exact List.mem_cons_of_mem _ (List.contains_iff_mem.mp h)

/-- A unit begins with its own letter. -/
theorem isUnit_cons {c : Char} (hc : c.toLower ∉ ['h', 'v', 'a', 's'])
    (hF : c = 'F' → us ≠ []) : isUnit (c :: us) = false := by
  simp only [List.mem_cons, List.not_mem_nil, or_false, not_or] at hc
  obtain ⟨hh, hv, ha, hs⟩ := hc
  simp only [isUnit, Bool.or_eq_false_iff, beq_eq_false_iff_ne]
  refine ⟨fun heq => ?_, ?_⟩
  · obtain ⟨rfl, hnil⟩ := List.cons.inj heq
    exact hF rfl hnil
  · simp [lowerAscii, hh, hv, ha, hs]

include hu

theorem factor?_of_unit : factor? us = some 1.0 := if_pos hu

theorem factorBefore_eq (f : Float) : factorBefore us f = some f := if_pos hu

/-- One letter in front of a unit is no `meg`. -/
theorem take_ne_meg (c : Char) : lowerAscii ((c :: us).take 3) ≠ "meg".toList := by
  have hlow : lowerAscii us = [] ∨
      lowerAscii us ∈ [['f'], "hz".toList, ['v'], ['a'], ['h'], ['s']] := by
    rcases Bool.or_eq_true_iff.mp hu with hempty | hunit
    · exact .inl (by rw [List.isEmpty_iff.mp hempty]; rfl)
    · exact .inr (lowerAscii_of_isUnit hunit)
  have htake : lowerAscii ((c :: us).take 3) = c.toLower :: (lowerAscii us).take 2 := by
    simp [lowerAscii, List.map_take]
  intro heq
  obtain ⟨-, hrest⟩ := List.cons.inj (htake.symm.trans heq)
  generalize lowerAscii us = low at hlow hrest
  rcases hlow with rfl | hlow
  · cases hrest
  · simp only [List.mem_cons, List.not_mem_nil, or_false] at hlow
    rcases hlow with rfl | rfl | rfl | rfl | rfl | rfl <;> revert hrest <;> decide

/-- The letter of mega and milli, which differ by case. -/
theorem factor?_m {c : Char} (hc : c = 'M' ∨ c = 'm') :
    factor? (c :: us) = some (if c = 'M' then 1e6 else 1e-3) := by
  have hunit : isUnit (c :: us) = false := by
    rcases hc with rfl | rfl <;> exact isUnit_cons (by decide) nofun
  unfold factor?
  rw [if_neg (by simp [hunit]), if_neg (take_ne_meg hu c)]
  rcases hc with rfl | rfl <;> exact factorBefore_eq hu _

theorem factor?_meg {cs : List Char} (h : lowerAscii cs = "meg".toList) :
    factor? (cs ++ us) = some 1e6 := by
  have hlength : cs.length = 3 := by simpa [lowerAscii] using congrArg List.length h
  obtain ⟨c, rest, rfl⟩ := List.exists_cons_of_length_eq_add_one hlength
  have hc : c.toLower = 'm' := (List.cons.inj h).1
  have hunit : isUnit (c :: (rest ++ us)) = false :=
    isUnit_cons (by rw [hc]; decide) (by rintro rfl; cases hc)
  unfold factor?
  rw [if_neg (by simp [hunit]), List.take_left' hlength, if_pos h, List.drop_left' hlength]
  exact factorBefore_eq hu 1e6

/-- Any other prefix is one letter, of which the table holds the small one. -/
theorem factor?_letter {c : Char} (hc : c.toLower ∉ ['m', 'h', 'v', 'a', 's'])
    (hF : c = 'F' → us ≠ []) : factor? (c :: us) = prefixes.lookup c.toLower := by
  obtain ⟨hm, hletters⟩ := not_or.mp (mt List.mem_cons.mpr hc)
  have hM : c ≠ 'M' := by rintro rfl; exact hm rfl
  have hmilli : c ≠ 'm' := by rintro rfl; exact hm rfl
  unfold factor?
  rw [if_neg (by simp [isUnit_cons hletters hF]), if_neg (take_ne_meg hu c)]
  split
  · cases ‹c :: us = []›
  · cases ‹c :: us = _›
    exact absurd rfl hM
  · cases ‹c :: us = _›
    exact absurd rfl hmilli
  · cases ‹c :: us = _›
    cases hlookup : prefixes.lookup c.toLower with
    | none => rfl
    | some f => exact factorBefore_eq hu f

end

theorem Scale.exists_letter {s : Scale} (hs : s ∉ [.one, .mega, .milli]) {cs : List Char}
    (h : cs ∈ s.spellings) : ∃ c, cs = [c] ∧ c.toLower ∉ ['m', 'h', 'v', 'a', 's'] ∧
      prefixes.lookup c.toLower = some s.factor := by
  cases s with
  | one | mega | milli => exact absurd (by decide) hs
  | micro =>
    simp only [Scale.spellings, casings, List.flatMap_cons, List.flatMap_nil, List.append_nil,
      List.cons_append, List.nil_append, List.mem_cons, List.not_mem_nil, or_false] at h
    rcases h with rfl | rfl | rfl | rfl <;> exact ⟨_, rfl, by decide, rfl⟩
  | _ =>
    simp only [Scale.spellings, casings, List.flatMap_cons, List.flatMap_nil, List.append_nil,
      List.mem_cons, List.not_mem_nil, or_false] at h
    rcases h with rfl | rfl <;> exact ⟨_, rfl, by decide, rfl⟩

theorem Scale.factor_injective {s s' : Scale} (h : s.factor = s'.factor) : s = s' := by
  revert h
  cases s <;> cases s' <;> decide +kernel

namespace Spelled

variable (q : Spelled)

/-- The letters behind the number that are read. -/
def suffix : List Char := q.scaleText ++ q.unitLetters

theorem exists_unit : ∃ u : Measure, u ≠ .ohm ∧ q.unitLetters ∈ u.spellings := by
  unfold unitLetters
  split
  · exact ⟨.bare, by decide, List.mem_singleton_self []⟩
  · next hu => exact ⟨q.unit, hu, q.unit_spelled⟩

theorem isReadWord_scaleText : IsReadWord q.scaleText :=
  q.scale.isReadWord q.scaleText q.scale_spelled

theorem isReadWord_unitLetters : IsReadWord q.unitLetters := by
  obtain ⟨u, hu, hletters⟩ := q.exists_unit
  exact Measure.isReadWord hu q.unitLetters hletters

theorem all_isSuffixLetter_suffix : q.suffix.all isSuffixLetter := by
  rw [suffix, List.all_append, q.isReadWord_scaleText.all_isSuffixLetter,
    q.isReadWord_unitLetters.all_isSuffixLetter, Bool.true_and]

theorem endsNumeral_suffix : EndsNumeral q.suffix := by
  have hscale := q.isReadWord_scaleText.endsNumeral
  unfold suffix
  generalize q.scaleText = cs at hscale
  cases cs with
  | cons c cs => exact hscale
  | nil => exact q.isReadWord_unitLetters.endsNumeral

/-- What is left of the unit and of what follows it. -/
theorem condensed_unit : condensed (q.unitText ++ q.after) = q.unitLetters := by
  have hspelled := q.unit_spelled
  unfold condensed unitLetters
  split
  · next hu =>
    rw [hu] at hspelled
    rw [withoutOhms_ohms (isOhmWord_of_mem _ hspelled) q.after_gap, q.after_gap.filter_eq_nil]
  · next hu =>
    have hword := Measure.isReadWord hu _ hspelled
    rw [withoutOhms_append hword.stays, withoutOhms_eq q.after_gap.stays, List.filter_append,
      filter_of_plain hword.plain, q.after_gap.filter_eq_nil, List.append_nil]

theorem condensed_text : condensed q.text = q.number.text ++ q.suffix := by
  have hscale := q.isReadWord_scaleText
  have hunit := q.condensed_unit
  have hnumber : ∀ c ∈ q.number.text, Stays c :=
    fun c hc => stays_of_isNumeric (q.number.isNumeric_text c hc)
  unfold condensed at hunit ⊢
  unfold text
  rw [withoutOhms_append q.before_gap.stays, withoutOhms_append hnumber,
    withoutOhms_append q.afterNumber_gap.stays, withoutOhms_append hscale.stays,
    withoutOhms_append q.afterScale_gap.stays]
  simp only [List.filter_append, q.before_gap.filter_eq_nil, q.afterNumber_gap.filter_eq_nil,
    q.afterScale_gap.filter_eq_nil, filter_of_plain q.number.plain_text,
    filter_of_plain hscale.plain, hunit, List.nil_append]
  rfl

/-- Only a unit in letters follows a femto that is a capital letter. -/
theorem unitLetters_ne_nil (h : q.scaleText = ['F']) : q.unitLetters ≠ [] := by
  obtain ⟨hbare, hohm⟩ := q.capital_femto h
  rw [unitLetters, if_neg hohm]
  intro hnil
  have hspelled := q.unit_spelled
  rw [hnil] at hspelled
  revert hbare hspelled
  generalize q.unit = u
  cases u <;> decide

theorem factor?_suffix : factor? q.suffix = some q.scale.factor := by
  obtain ⟨u, hu, hletters⟩ := q.exists_unit
  have hunit := endsUnit_of_mem hu _ hletters
  have hspelled := q.scale_spelled
  have hfemto := q.unitLetters_ne_nil
  unfold suffix
  generalize q.unitLetters = us at hunit hfemto
  generalize q.scaleText = cs at hspelled hfemto
  generalize q.scale = s at hspelled
  cases s with
  | one =>
    obtain rfl := List.mem_singleton.mp hspelled
    exact factor?_of_unit hunit
  | mega =>
    rcases List.mem_cons.mp hspelled with rfl | hmeg
    · exact factor?_m hunit (.inl rfl)
    · have hall : ∀ cs ∈ casings "meg".toList, lowerAscii cs = "meg".toList := by decide
      exact factor?_meg hunit (hall cs hmeg)
  | milli =>
    obtain rfl := List.mem_singleton.mp hspelled
    exact factor?_m hunit (.inr rfl)
  | _ =>
    obtain ⟨c, rfl, hletter, hlookup⟩ := Scale.exists_letter (by decide) hspelled
    refine (factor?_letter hunit hletter fun hF => hfemto ?_).trans hlookup
    rw [hF]

theorem scan_condensed : scan (condensed q.text) = some (q.number.decimal, q.suffix) := by
  rw [q.condensed_text, q.number.scan_append q.endsNumeral_suffix]

theorem read_text :
    read (String.ofList q.text) = if q.value.isFinite then some q.value else none := by
  unfold read
  rw [String.toList_ofList, q.scan_condensed]
  simp only [Option.bind_eq_bind, Option.bind_some, q.all_isSuffixLetter_suffix,
    if_true, q.factor?_suffix]
  rfl

/-- A text is no other quantity: its number and its prefix are its own. -/
theorem eq_of_text_eq {q q' : Spelled} (h : q'.text = q.text) :
    q'.number.text = q.number.text ∧ q'.scale = q.scale := by
  have hscan := q'.scan_condensed
  rw [h, q.scan_condensed, Option.some.injEq, Prod.mk.injEq] at hscan
  obtain ⟨-, hsuffix⟩ := hscan
  have htext : q'.number.text ++ q'.suffix = q.number.text ++ q.suffix := by
    rw [← q.condensed_text, ← q'.condensed_text, h]
  have hfactor := q'.factor?_suffix
  rw [← hsuffix, q.factor?_suffix, Option.some.injEq] at hfactor
  rw [hsuffix, List.append_cancel_right_eq] at htext
  exact ⟨htext, Scale.factor_injective hfactor.symm⟩

end Spelled

/-- A number with a prefix and a unit is worth the number times the prefix, where that is finite,
and has no other reading. -/
theorem ofJsonOr_spelled {α : Type} (q : Spelled) (fallback : α) :
    readFloat q.number.text = some q.number.value ∧
      ofJsonOr fallback (.text (String.ofList q.text)) =
        .ok (if q.value.isFinite then .inl q.value else .inr fallback) ∧
      ∀ q' : Spelled, q'.text = q.text →
        q'.number.text = q.number.text ∧ q'.scale = q.scale := by
  refine ⟨q.number.readFloat_text, ?_, fun _ => Spelled.eq_of_text_eq⟩
  rw [ofJsonOr_text, q.read_text]
  by_cases hfinite : q.value.isFinite <;> simp only [hfinite, if_true] <;> rfl

/-- Half a kiloohm, with blanks and an underscore. -/
def Spelled.halfKiloohm : Spelled where
  number := .half
  scale := .kilo
  unit := .ohm
  scaleText := ['k']
  unitText := "Ohms".toList
  before := [' ']
  afterNumber := [' ']
  afterScale := ['_']
  after := []
  scale_spelled := by decide
  unit_spelled := by decide
  capital_femto := nofun
  before_gap := List.forall_mem_singleton.mpr (by decide)
  afterNumber_gap := List.forall_mem_singleton.mpr (by decide)
  afterScale_gap := List.forall_mem_singleton.mpr (by decide)
  after_gap := nofun

example : Spelled.halfKiloohm.text = " .5 k_Ohms".toList := by decide

end Breadboard.Quantity
