import Breadboard.Output.OperatingPoint
import Breadboard.Proofs.Output.Overlong
import Breadboard.Proofs.Output.Written

/-!
# Lines of an operating point

An operating point is printed as lines that equate a quantity to a number: the voltage of a node, or
the current of a device by its name or by its branch. Each is read as the quantity and the number,
and lines without the signs that these are read by give nothing.
-/

namespace Breadboard

open Text Numeral

namespace OperatingPoint

/-! ## Printed quantities -/

/-- How a quantity is named in front of the equals sign. -/
inductive Form where
  | voltage
  | current
  | branch
  deriving DecidableEq

/-- A quantity that is equated to a finite number; its name holds no blank and none of the signs
that a line is read by. -/
structure Entry where
  form : Form
  name : List Char
  number : Written
  name_pos : name ≠ []
  name_word : ∀ c ∈ name, isBlank c = false
  name_plain : ∀ c ∈ name, c ∉ ['(', ')', '#', '=']
  finite : number.value.isFinite

namespace Entry

/-- What stands before the equals sign. -/
def subject (e : Entry) : List Char :=
  match e.form with
  | .voltage => 'v' :: '(' :: (e.name ++ [')'])
  | .current => 'i' :: '(' :: (e.name ++ [')'])
  | .branch => e.name ++ "#branch".toList

/-- The line that prints the quantity. -/
def text (e : Entry) : List Char := e.subject ++ " = ".toList ++ e.number.text

/-- The quantity; devices are named in small letters. -/
def quantity (e : Entry) : Quantity :=
  match e.form with
  | .voltage => .voltage (String.ofList e.name)
  | .current => .current (lower (String.ofList e.name))
  | .branch => .current (lower (String.ofList e.name))

variable (e : Entry)

theorem isWord_name : IsWord e.name := ⟨e.name_pos, e.name_word⟩

theorem trim_name : trim e.name = e.name :=
  trim_of_words_eq_singleton (words_of_isWord e.isWord_name)

theorem isWord_subject : IsWord e.subject := by
  have hbracket : ∀ p : Char, isBlank p = false → IsWord (p :: '(' :: (e.name ++ [')'])) := by
    intro p hp
    exact ⟨List.cons_ne_nil _ _, List.forall_mem_cons.mpr ⟨hp, List.forall_mem_cons.mpr
      ⟨by decide, List.forall_mem_append.mpr
        ⟨e.name_word, List.forall_mem_singleton.mpr (by decide)⟩⟩⟩⟩
  unfold subject
  cases e.form with
  | voltage => exact hbracket 'v' (by decide)
  | current => exact hbracket 'i' (by decide)
  | branch =>
    exact ⟨List.append_ne_nil_of_left_ne_nil e.name_pos _,
      List.forall_mem_append.mpr ⟨e.name_word, List.all_iff_forall_prop.mp (by decide)⟩⟩

theorem words_text : words e.text = [e.subject, ['='], e.number.text] := by
  have hnumber := words_of_isWord e.number.isWord_text
  have hequals : words ('=' :: ' ' :: e.number.text) = [['='], e.number.text] := by
    have hword : IsWord ['='] := ⟨List.cons_ne_nil _ _, List.forall_mem_singleton.mpr (by decide)⟩
    have hblank : Detached (' ' :: e.number.text) := by
      rintro c ⟨⟩
      decide
    have hfirst := words_append_detached hword hblank
    rwa [words_cons_blank (by decide), hnumber] at hfirst
  have hblank : Detached (" = ".toList ++ e.number.text) := by
    rintro c ⟨⟩
    decide
  rw [text, List.append_assoc, words_append_detached e.isWord_subject hblank]
  show _ :: words (' ' :: '=' :: ' ' :: e.number.text) = _
  rw [words_cons_blank (by decide), hequals]

theorem equals_mem_text : '=' ∈ e.text := by
  rw [text, List.append_assoc]
  exact List.mem_append_right _ (List.mem_append_left _ (by decide))

end Entry

/-! ## What a line must hold -/

section Signs

variable {cs rest : List Char}

theorem firstMatch_eq_none {α : Type} {read : List Char → Option α}
    (h : ∀ part, part <:+ cs → read part = none) : firstMatch read cs = none := by
  induction cs with
  | nil => exact h [] List.suffix_rfl
  | cons c cs ih =>
    rw [firstMatch, h _ List.suffix_rfl, Option.none_or]
    exact ih fun part hp => h part (hp.trans (List.suffix_cons c cs))

theorem firstMatch_of_eq_some {α : Type} {read : List Char → Option α} {a : α}
    (h : read cs = some a) : firstMatch read cs = some a := by
  cases cs with
  | nil => exact h
  | cons c cs => rw [firstMatch, h, Option.some_or]

theorem exists_of_bracketed {letter : String} {p : Char} {name : List Char}
    (hl : (letter ++ "(").toList = [p, '(']) (h : bracketed letter cs = some (name, rest)) :
    (∃ c inside, foldsTo p c ∧ cs = c :: '(' :: inside) ∧ rest <:+ cs := by
  unfold bracketed at h
  rw [hl] at h
  obtain ⟨inside, hskip, hfound⟩ := Option.bind_eq_some_iff.mp h
  obtain ⟨c, hc, rfl⟩ := exists_of_skipWord_bracket hskip
  refine ⟨⟨c, inside, hc, rfl⟩, ?_⟩
  split at hfound
  · cases hfound
  · next hrest _ =>
    cases hfound
    have hsuffix : ')' :: rest <:+ inside := hrest ▸ List.dropWhile_suffix _
    exact ((List.suffix_cons ')' rest).trans hsuffix).trans (List.suffix_append [c, '('] inside)
  · cases hfound

theorem mem_of_equated {d : Decimal} (h : equated cs = some d) : '=' ∈ cs := by
  unfold equated at h
  split at h
  · next more htrim =>
    exact (trimStart_suffix cs).subset (htrim ▸ List.mem_cons_self)
  · cases h

theorem exists_of_assignment {letter : String} {p : Char} {x : List Char × Decimal}
    (hl : (letter ++ "(").toList = [p, '(']) (h : assignment letter cs = some x) :
    (∃ c inside, foldsTo p c ∧ cs = c :: '(' :: inside) ∧ '=' ∈ cs := by
  obtain ⟨⟨name, rest⟩, hname, h⟩ := Option.bind_eq_some_iff.mp h
  obtain ⟨d, hd, -⟩ := Option.bind_eq_some_iff.mp h
  obtain ⟨hopening, hsuffix⟩ := exists_of_bracketed hl hname
  exact ⟨hopening, hsuffix.subset (mem_of_equated hd)⟩

theorem exists_of_listing {x : List Char × Decimal} (h : listing cs = some x) :
    ∃ c inside, foldsTo 'v' c ∧ trimStart cs = c :: '(' :: inside := by
  obtain ⟨⟨name, rest⟩, hname, -⟩ := Option.bind_eq_some_iff.mp h
  exact (exists_of_bracketed rfl hname).1

/-- A branch is told by a number sign. -/
theorem mem_of_branch {x : List Char × Decimal} (h : branch cs = some x) : '#' ∈ cs := by
  unfold branch at h
  dsimp only at h
  split at h
  · cases h
  · obtain ⟨tail, hskip, -⟩ := Option.bind_eq_some_iff.mp h
    have hsuffix := List.dropWhile_suffix (fun c => !(c == '#' || isBlank c)) (l := cs)
    rw [show "#branch".toList = '#' :: "branch".toList from rfl] at hskip
    cases hd : cs.dropWhile fun c => !(c == '#' || isBlank c) with
    | nil =>
      rw [hd] at hskip
      cases hskip
    | cons c more =>
      rw [hd, skipWord] at hskip
      rw [hd] at hsuffix
      split at hskip
      · next hfolds =>
        have hc : c = '#' := eq_of_toLower_eq (by decide) (by simpa [foldsTo] using hfolds)
        exact hsuffix.subset (hc ▸ List.mem_cons_self)
      · cases hskip

theorem firstMatch_assignment_of_not_mem {letter : String} {p : Char}
    (hl : (letter ++ "(").toList = [p, '(']) (h : '(' ∉ cs ∨ '=' ∉ cs) :
    firstMatch (assignment letter) cs = none := by
  refine firstMatch_eq_none fun part hp => Option.eq_none_iff_forall_ne_some.mpr fun x hx => ?_
  obtain ⟨⟨c, inside, -, rfl⟩, hequals⟩ := exists_of_assignment hl hx
  rcases h with hbracket | hnone
  · exact hbracket (hp.subset (List.mem_cons_of_mem c List.mem_cons_self))
  · exact hnone (hp.subset hequals)

/-- No bracket stands behind a letter but the first, so another letter names nothing. -/
theorem firstMatch_assignment_of_ne {letter : String} {p q : Char}
    (hl : (letter ++ "(").toList = [p, '(']) (hq : foldsTo p q = false)
    (hp : foldsTo p '(' = false) (hrest : '(' ∉ rest) :
    firstMatch (assignment letter) (q :: '(' :: rest) = none := by
  refine firstMatch_eq_none fun part hpart => Option.eq_none_iff_forall_ne_some.mpr fun x hx => ?_
  obtain ⟨⟨c, inside, hc, rfl⟩, -⟩ := exists_of_assignment hl hx
  rcases List.suffix_cons_iff.mp hpart with heq | hpart
  · rw [(List.cons.inj heq).1, hq] at hc
    cases hc
  · rcases List.suffix_cons_iff.mp hpart with heq | hpart
    · rw [(List.cons.inj heq).1, hp] at hc
      cases hc
    · exact hrest (hpart.subset (List.mem_cons_of_mem c List.mem_cons_self))

theorem listing_eq_none
    (h : '(' ∉ cs ∨ ∀ c ∈ (trimStart cs).head?, foldsTo 'v' c = false) : listing cs = none := by
  refine Option.eq_none_iff_forall_ne_some.mpr fun x hx => ?_
  obtain ⟨c, inside, hc, htrim⟩ := exists_of_listing hx
  rcases h with hbracket | hstart
  · exact hbracket ((trimStart_suffix cs).subset
      (htrim ▸ List.mem_cons_of_mem c List.mem_cons_self))
  · rw [hstart c (by rw [htrim]; rfl)] at hc
    cases hc

/-- The first reading of a line is what it gives, if it is finite. -/
theorem readLine_of_head {q : Quantity × Float} (h : (readings cs).head? = some q)
    (hf : q.2.isFinite) : readLine cs = some q := by
  obtain ⟨more, hmore⟩ := List.head?_eq_some_iff.mp h
  unfold readLine
  rw [hmore]
  simp only [List.find?_cons, hf]

/-- A line without an equals sign and a number sign gives nothing, unless it starts with the letter
of a voltage. -/
theorem readLine_eq_none (hequals : '=' ∉ cs) (hsharp : '#' ∉ cs)
    (hstart : ∀ c ∈ (trimStart cs).head?, foldsTo 'v' c = false) : readLine cs = none := by
  have hv : firstMatch (assignment "v") cs = none :=
    firstMatch_assignment_of_not_mem (p := 'v') rfl (.inr hequals)
  have hi : firstMatch (assignment "i") cs = none :=
    firstMatch_assignment_of_not_mem (p := 'i') rfl (.inr hequals)
  have hbranch : firstMatch branch cs = none :=
    firstMatch_eq_none fun part hp => Option.eq_none_iff_forall_ne_some.mpr fun x hx =>
      hsharp (hp.subset (mem_of_branch hx))
  rw [readLine, readings, hv, listing_eq_none (.inr hstart), hi, hbranch]
  rfl

end Signs

/-! ## Reading a printed quantity -/

namespace Entry

variable (e : Entry)

theorem trimStart_equals :
    trimStart (" = ".toList ++ e.number.text) = '=' :: ' ' :: e.number.text := by
  show (' ' :: '=' :: ' ' :: e.number.text).dropWhile isBlank = _
  rw [List.dropWhile_cons_of_pos (by decide), List.dropWhile_cons_of_neg (by decide)]

theorem numeral_number : numeral (' ' :: e.number.text) = some (e.number.decimal, []) := by
  have hkeep := trimStart_append e.number.isWord_text []
  rw [List.append_nil, trimStart] at hkeep
  rw [numeral, trimStart, List.dropWhile_cons_of_pos (by decide), hkeep, e.number.scan_text]

/-- The number is what the equals sign equates to. -/
theorem equated_number : equated (" = ".toList ++ e.number.text) = some e.number.decimal := by
  unfold equated
  rw [e.trimStart_equals]
  simp only [e.numeral_number, Option.map_some]

theorem assignment_name {letter : String} {p : Char} (hl : (letter ++ "(").toList = [p, '('])
    (hp : foldsTo p p) :
    assignment letter (p :: '(' :: (e.name ++ ')' :: (" = ".toList ++ e.number.text))) =
      some (e.name, e.number.decimal) := by
  have hname : ∀ c ∈ e.name, (c != ')') = true := by
    intro c hc
    have hplain := e.name_plain c hc
    rw [bne_iff_ne]
    rintro rfl
    exact hplain (by decide)
  have hskip : ∀ inside, skipWord (letter ++ "(").toList (p :: '(' :: inside) = some inside := by
    intro inside
    rw [hl, skipWord, if_pos hp]
    rfl
  have htake : ∀ rest, (e.name ++ ')' :: rest).takeWhile (· != ')') = e.name ∧
      (e.name ++ ')' :: rest).dropWhile (· != ')') = ')' :: rest := by
    intro rest
    rw [List.takeWhile_append_of_pos hname, List.dropWhile_append_of_pos hname]
    simp
  obtain ⟨c, cs, hcs⟩ := List.exists_cons_of_ne_nil e.name_pos
  unfold assignment bracketed
  simp only [hskip, Option.bind_eq_bind, Option.bind_some, htake]
  rw [hcs]
  simp only [Option.bind_some, e.equated_number]
  rfl

theorem not_mem_number {c : Char} (h : ¬ IsNumeric c) : c ∉ e.number.text :=
  fun hc => h (e.number.isNumeric_text c hc)

theorem not_mem_name {c : Char} (h : c ∈ ['(', ')', '#', '=']) : c ∉ e.name :=
  fun hc => e.name_plain c hc h

theorem bracket_not_mem_inside :
    '(' ∉ e.name ++ ')' :: (" = ".toList ++ e.number.text) := by
  have hnumber := e.not_mem_number (c := '(') (by unfold IsNumeric; decide)
  have hname := e.not_mem_name (c := '(') (by decide)
  simp [hname, hnumber]

theorem readLine_voltage (h : e.form = .voltage) :
    readLine e.text = some (e.quantity, e.number.value) := by
  have htext : e.text = 'v' :: '(' :: (e.name ++ ')' :: (" = ".toList ++ e.number.text)) := by
    simp [text, subject, h]
  have hfound : firstMatch (assignment "v") e.text = some (e.name, e.number.decimal) := by
    rw [htext]
    exact firstMatch_of_eq_some (e.assignment_name rfl rfl)
  have hread : OperatingPoint.voltage (e.name, e.number.decimal) =
      (e.quantity, e.number.value) := by
    rw [OperatingPoint.voltage, e.trim_name, quantity, h]
    rfl
  refine readLine_of_head (q := (e.quantity, e.number.value)) ?_ e.finite
  rw [readings, hfound, Option.map_some, hread]
  rfl

theorem readLine_current (h : e.form = .current) :
    readLine e.text = some (e.quantity, e.number.value) := by
  have htext : e.text = 'i' :: '(' :: (e.name ++ ')' :: (" = ".toList ++ e.number.text)) := by
    simp [text, subject, h]
  have hvoltage : firstMatch (assignment "v") e.text = none := by
    rw [htext]
    exact firstMatch_assignment_of_ne (p := 'v') rfl (by decide) (by decide)
      e.bracket_not_mem_inside
  have hlisting : listing e.text = none := by
    refine listing_eq_none (.inr fun c hc => ?_)
    rw [htext, trimStart, List.dropWhile_cons_of_neg (by decide)] at hc
    obtain rfl : 'i' = c := Option.some.inj hc
    decide
  have hfound : firstMatch (assignment "i") e.text = some (e.name, e.number.decimal) := by
    rw [htext]
    exact firstMatch_of_eq_some (e.assignment_name rfl rfl)
  have hread : OperatingPoint.current (e.name, e.number.decimal) =
      (e.quantity, e.number.value) := by
    rw [OperatingPoint.current, e.trim_name, quantity, h]
    rfl
  refine readLine_of_head (q := (e.quantity, e.number.value)) ?_ e.finite
  rw [readings, hvoltage, hlisting, hfound, Option.map_some, hread]
  rfl

theorem bracket_not_mem_text (h : e.form = .branch) : '(' ∉ e.text := by
  have hnumber := e.not_mem_number (c := '(') (by unfold IsNumeric; decide)
  have hname := e.not_mem_name (c := '(') (by decide)
  simp [text, subject, h, hname, hnumber]

theorem branch_name :
    OperatingPoint.branch (e.name ++ ("#branch".toList ++ (" = ".toList ++ e.number.text))) =
      some (e.name, e.number.decimal) := by
  have hname : ∀ c ∈ e.name, (!(c == '#' || isBlank c)) = true := by
    intro c hc
    have hsharp : c ≠ '#' := by
      rintro rfl
      exact e.not_mem_name (by decide) hc
    simp [hsharp, e.name_word c hc]
  have hstop : ∀ rest, (e.name ++ '#' :: rest).takeWhile (fun c => !(c == '#' || isBlank c)) =
        e.name ∧
      (e.name ++ '#' :: rest).dropWhile (fun c => !(c == '#' || isBlank c)) = '#' :: rest := by
    intro rest
    rw [List.takeWhile_append_of_pos hname, List.dropWhile_append_of_pos hname]
    simp
  have hskip : ∀ rest, skipWord "#branch".toList ("#branch".toList ++ rest) = some rest := by
    intro rest
    simp [skipWord, foldsTo]
  obtain ⟨htake, hdrop⟩ := hstop ("branch".toList ++ (" = ".toList ++ e.number.text))
  have hsplit : '#' :: ("branch".toList ++ (" = ".toList ++ e.number.text)) =
      "#branch".toList ++ (" = ".toList ++ e.number.text) := rfl
  rw [hsplit] at htake hdrop
  obtain ⟨c, cs, hcs⟩ := List.exists_cons_of_ne_nil e.name_pos
  unfold OperatingPoint.branch
  simp only [htake, hdrop, hskip, Option.bind_eq_bind, Option.bind_some, e.trimStart_equals,
    e.numeral_number, Option.map_some]
  rw [hcs]

theorem readLine_branch (h : e.form = .branch) :
    readLine e.text = some (e.quantity, e.number.value) := by
  have htext : e.text = e.name ++ ("#branch".toList ++ (" = ".toList ++ e.number.text)) := by
    simp [text, subject, h]
  have hbracket := e.bracket_not_mem_text h
  have hv : firstMatch (assignment "v") e.text = none :=
    firstMatch_assignment_of_not_mem (p := 'v') rfl (.inl hbracket)
  have hi : firstMatch (assignment "i") e.text = none :=
    firstMatch_assignment_of_not_mem (p := 'i') rfl (.inl hbracket)
  have hfound : firstMatch OperatingPoint.branch e.text = some (e.name, e.number.decimal) := by
    rw [htext]
    exact firstMatch_of_eq_some e.branch_name
  have hread : OperatingPoint.current (e.name, e.number.decimal) =
      (e.quantity, e.number.value) := by
    rw [OperatingPoint.current, e.trim_name, quantity, h]
    rfl
  refine readLine_of_head (q := (e.quantity, e.number.value)) ?_ e.finite
  rw [readings, hv, listing_eq_none (.inl hbracket), hi, hfound, Option.map_some, hread]
  rfl

/-- A printed quantity is read as what it gives. -/
theorem readLine_text : readLine e.text = some (e.quantity, e.number.value) := by
  cases h : e.form with
  | voltage => exact e.readLine_voltage h
  | current => exact e.readLine_current h
  | branch => exact e.readLine_branch h

end Entry

end OperatingPoint

end Breadboard
