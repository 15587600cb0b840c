import Breadboard.Circuit.Editor
import Breadboard.Proofs.Netlist.DeckLayout
import Breadboard.Proofs.Netlist.DeviceLines
import Breadboard.Proofs.Netlist.Session

/-!
# Element lines

An element line is read by position: a name, the node of each pin, and a value or a model, one word
each. Designators and models are free text, so an emitted line has this form exactly if the blanks
in them do no harm.
-/

namespace Breadboard

open Text

/-! ## Line boundaries -/

namespace Text

variable {c : Char} {cs : List Char}

theorem words_ne_nil (hc : c ∈ cs) (hb : isBlank c = false) : words cs ≠ [] := by
  obtain ⟨w, hw, -⟩ := exists_mem_words hc hb
  exact List.ne_nil_of_mem hw

/-- Line boundaries are blanks. -/
theorem endsLine_of_not_blank (h : isBlank c = false) : endsLine c = false := by
  unfold isBlank at h
  unfold endsLine
  simp only [Bool.or_eq_false_iff, Bool.and_eq_false_iff, decide_eq_false_iff_not,
    beq_eq_false_iff_ne] at h ⊢
  omega

end Text

/-! ## The form of a line -/

/-- The words behind the nodes: one value or model, and for a source `DC` and its value. -/
def Device.Ending : Device → List (List Char) → Prop
  | .voltageSource, ws => ∃ value, ws = ["DC".toList, value]
  | _, ws => ∃ w, ws = [w]

/-- A line of a device between these nodes, by position: one name that begins with the letter of the
device, the nodes in decimal digits and the ending, on one line. -/
structure ElementLine (d : Device) (nodes : List Int) (text : String) : Prop where
  words_eq : ∃ name ending,
    words text.toList = name :: (nodes.map DeviceLine.nodeChars ++ ending) ∧
      d.letter.toList <+: name ∧ d.Ending ending
  one_line : ∀ ch ∈ text.toList, endsLine ch = false

/-- A component whose free texts stand in a line as one word each: no blank in its designator but
at the end, no line boundary even there, and no blank within the model of a diode or LED. -/
structure Component.Plain (c : Component) (d : Device) : Prop where
  designator : ∀ ch ∈ trimEnd c.designator.toList, isBlank ch = false
  one_line : ∀ ch ∈ c.designator.toList, endsLine ch = false
  model : d = .diode ∨ d = .led → ∀ ch ∈ trim (c.model.getD "").toList, isBlank ch = false

/-! ## Models -/

namespace DeviceModel

variable {c : Component} {default : String}

theorem declared_cases (c : Component) (default : String) :
    trim (c.model.getD "").toList = [] ∧ declared c default = default ∨
      trim (c.model.getD "").toList ≠ [] ∧
        (declared c default).toList = trim (c.model.getD "").toList := by
  unfold declared trimmed
  by_cases hnil : trim (c.model.getD "").toList = []
  · simp [hnil]
  · refine .inr ⟨hnil, ?_⟩
    have hne : ¬ (String.ofList (trim (c.model.getD "").toList)).isEmpty = true := by
      simpa using hnil
    simp only
    rw [if_neg hne, String.toList_ofList]

theorem isWord_declared_iff (hd : IsWord default.toList) :
    IsWord (declared c default).toList ↔
      ∀ ch ∈ trim (c.model.getD "").toList, isBlank ch = false := by
  rcases declared_cases c default with ⟨hnil, hname⟩ | ⟨hne, hname⟩
  · rw [hname, hnil]
    exact iff_of_true hd fun _ hch => absurd hch List.not_mem_nil
  · rw [hname]
    exact and_iff_right hne

theorem trim_declared (hd : IsWord default.toList) :
    trim (declared c default).toList = (declared c default).toList := by
  rcases declared_cases c default with ⟨-, hname⟩ | ⟨-, hname⟩
  · rw [hname, trim_of_words_eq_singleton (words_of_isWord hd)]
  · rw [hname, trim_trim]

theorem isWord_family (c : Component) : IsWord (family c).toList := by
  have hwords : ∀ f ∈ defaultFamily :: families,
      f.toList ≠ [] ∧ (f.toList.all fun ch => !isBlank ch) = true := by decide
  have hmem : family c ∈ defaultFamily :: families := by
    unfold family
    simp only
    generalize hfind : List.find? _ families = f
    cases f with
    | none => exact List.mem_cons_self
    | some f => exact List.mem_cons_of_mem _ (List.mem_of_find?_eq_some hfind)
  obtain ⟨hne, hall⟩ := hwords _ hmem
  exact ⟨hne, fun ch hch => by simpa using List.all_eq_true.mp hall ch hch⟩

end DeviceModel

/-! ## Words of an emitted line -/

namespace Device

variable {d : Device} {c : Component} {ws : List (List Char)}

open DeviceLine

/-- How many words follow the nodes. -/
def endingSize : Device → Nat
  | .voltageSource => 2
  | _ => 1

theorem Ending.length_eq (h : d.Ending ws) : ws.length = d.endingSize := by
  cases d <;> (obtain ⟨w, rfl⟩ := h; rfl)

theorem isWord_defaults : IsWord "D1N4148".toList ∧ IsWord "LED_GENERIC".toList :=
  ⟨⟨by decide, List.all_iff_forall_prop.mp (by decide)⟩,
    ⟨by decide, List.all_iff_forall_prop.mp (by decide)⟩⟩

theorem words_declared_ne_nil {default : String} (hd : IsWord default.toList) :
    words (DeviceModel.declared c default).toList ≠ [] := by
  intro hnil
  have htrim : trim (DeviceModel.declared c default).toList = [] := by
    rw [trim, trimStart_of_words_nil hnil]
    rfl
  rcases DeviceModel.declared_cases c default with ⟨-, hname⟩ | ⟨hne, hname⟩
  · rw [hname, words_of_isWord hd] at hnil
    cases hnil
  · rw [hname, trim_trim] at htrim
    exact hne htrim

theorem endingSize_le (d : Device) (c : Component) :
    d.endingSize ≤ (tailWords (d.tail c)).length := by
  cases d with
  | resistor => exact Nat.le_refl 1
  | capacitor => exact Nat.le_refl 1
  | voltageSource => exact Nat.le_refl 2
  | diode => exact List.length_pos_iff.mpr (words_declared_ne_nil isWord_defaults.1)
  | led => exact List.length_pos_iff.mpr (words_declared_ne_nil isWord_defaults.2)
  | transistor =>
    show 1 ≤ (words (DeviceModel.family c).toList).length
    rw [words_of_isWord (DeviceModel.isWord_family c)]
    exact Nat.le_refl 1

/-- A line ends as it should unless it ends in a declared model with blanks. -/
theorem ending_iff : d.Ending (tailWords (d.tail c)) ↔
    (d = .diode ∨ d = .led → ∀ ch ∈ trim (c.model.getD "").toList, isBlank ch = false) := by
  have hmodel {default : String} (hd : IsWord default.toList) :
      (∃ w, words (DeviceModel.declared c default).toList = [w]) ↔
        ∀ ch ∈ trim (c.model.getD "").toList, isBlank ch = false := by
    rw [exists_words_eq_singleton_iff, DeviceModel.trim_declared hd,
      DeviceModel.isWord_declared_iff hd]
  cases d with
  | resistor => exact iff_of_true ⟨_, rfl⟩ (by simp)
  | capacitor => exact iff_of_true ⟨_, rfl⟩ (by simp)
  | voltageSource => exact iff_of_true ⟨_, rfl⟩ (by simp)
  | transistor =>
    exact iff_of_true ⟨_, words_of_isWord (DeviceModel.isWord_family c)⟩ (by simp)
  | diode => exact (hmodel isWord_defaults.1).trans (by simp)
  | led => exact (hmodel isWord_defaults.2).trans (by simp)

end Device

namespace DeviceLine

variable {l : DeviceLine}

/-- A name and an ending that have no fewer words than they should have no more either. -/
theorem eq_of_append_eq {names nodes tail ending : List (List Char)} {name : List Char}
    (h : names ++ (nodes ++ tail) = name :: (nodes ++ ending)) (hn : names ≠ [])
    (ht : ending.length ≤ tail.length) : names = [name] ∧ tail = ending := by
  obtain ⟨first, more, rfl⟩ := List.exists_cons_of_ne_nil hn
  rw [List.cons_append, List.cons.injEq] at h
  obtain ⟨rfl, hrest⟩ := h
  have hlength := congrArg List.length hrest
  simp only [List.length_append] at hlength
  obtain rfl : more = [] := List.length_eq_zero_iff.mp (by omega)
  exact ⟨rfl, List.append_cancel_left hrest⟩

theorem words_name_ne_nil (l : DeviceLine) : words l.name.toList ≠ [] := by
  obtain ⟨letter, hletter, hblank, -⟩ := exists_letter l.device
  refine words_ne_nil (c := letter) ?_ hblank
  rw [toList_name, hletter]
  exact List.mem_cons_self

/-- The name of a line is one word if its designator has no blank but at the end. -/
theorem exists_words_name_iff : (∃ w, words l.name.toList = [w]) ↔
    ∀ ch ∈ trimEnd l.designator.toList, isBlank ch = false := by
  obtain ⟨letter, hletter, hblank, -⟩ := exists_letter l.device
  rw [exists_words_eq_singleton_iff, toList_name, hletter, List.singleton_append,
    trim_cons hblank, IsWord, List.forall_mem_cons]
  exact ⟨fun h => h.2.2, fun h => ⟨List.cons_ne_nil _ _, hblank, h⟩⟩

end DeviceLine

namespace Component

variable {c : Component} {d : Device} {nodes : List Int}

open DeviceLine Assembly

theorem endsLine_tailText (h : d.Ending (tailWords (d.tail c))) :
    ∀ ch ∈ (tailText (d.tail c)).toList, endsLine ch = false := by
  have hword {s : String} (hs : IsWord s.toList) : ∀ ch ∈ s.toList, endsLine ch = false :=
    fun ch hch => endsLine_of_not_blank (hs.2 ch hch)
  have hvalue (v : Float) : ∀ ch ∈ (Quantity.forDeck v).toList, endsLine ch = false := by
    obtain ⟨_, -, -, -, hv⟩ := Quantity.exists_read_forDeck v
    exact hword hv
  have hmodel (default : String) (hd : IsWord default.toList)
      (hone : ∃ w, words (DeviceModel.declared c default).toList = [w]) :
      ∀ ch ∈ (DeviceModel.declared c default).toList, endsLine ch = false := by
    rw [exists_words_eq_singleton_iff, DeviceModel.trim_declared hd] at hone
    exact hword hone
  cases d with
  | resistor => exact hvalue (Device.valueOf .resistor c)
  | capacitor => exact hvalue (Device.valueOf .capacitor c)
  | voltageSource =>
    have htext : (tailText (Device.tail .voltageSource c)).toList =
        ['D', 'C', ' '] ++ (Quantity.forDeck (Device.valueOf .voltageSource c)).toList := by
      show ("DC " ++ Quantity.forDeck _).toList = _
      rw [String.toList_append]
      rfl
    rw [htext]
    exact List.forall_mem_append.mpr ⟨List.all_iff_forall_prop.mp (by decide), hvalue _⟩
  | diode => exact hmodel "D1N4148" Device.isWord_defaults.1 h
  | led => exact hmodel "LED_GENERIC" Device.isWord_defaults.2 h
  | transistor => exact hword (DeviceModel.isWord_family c)

theorem plain_of_elementLine (hn : ∀ k ∈ nodes, 0 ≤ k)
    (h : ElementLine d nodes (lineOf d c nodes).text) : c.Plain d := by
  have hwords : words (lineOf d c nodes).text.toList =
      words (lineOf d c nodes).name.toList ++ (nodes.map nodeChars ++ tailWords (d.tail c)) :=
    words_text_eq hn
  obtain ⟨name, ending, heq, -, hending⟩ := h.words_eq
  rw [hwords] at heq
  have hsize : ending.length ≤ (tailWords (d.tail c)).length := by
    rw [hending.length_eq]
    exact d.endingSize_le c
  obtain ⟨hname, htail⟩ :=
    eq_of_append_eq heq (words_name_ne_nil (lineOf d c nodes)) hsize
  have hdesignator := (exists_words_name_iff (l := lineOf d c nodes)).mp ⟨name, hname⟩
  refine ⟨hdesignator, fun ch hch => h.one_line ch ?_, Device.ending_iff.mp ?_⟩
  · rw [toList_text, toList_name]
    exact List.mem_append_left _ (List.mem_append_right _ hch)
  · rwa [htail]

theorem Plain.words_text (h : c.Plain d) (hn : ∀ k ∈ nodes, 0 ≤ k) :
    ∃ name, d.letter.toList <+: name ∧ words (lineOf d c nodes).text.toList =
      name :: (nodes.map nodeChars ++ tailWords (d.tail c)) := by
  obtain ⟨letter, hletter, hblank, -⟩ := exists_letter d
  obtain ⟨w, hw⟩ := (exists_words_name_iff (l := lineOf d c nodes)).mpr h.designator
  have hname : (lineOf d c nodes).name.toList = letter :: c.designator.toList := by
    show (d.letter ++ c.designator).toList = _
    rw [String.toList_append, hletter]
    rfl
  have htrim := trim_of_words_eq_singleton hw
  rw [hname, trim_cons hblank] at htrim
  refine ⟨w, ?_, ?_⟩
  · rw [hletter, ← htrim]
    exact ⟨_, rfl⟩
  · rw [words_text_eq hn, hw]
    rfl

theorem Plain.endsLine_text (h : c.Plain d) (hn : ∀ k ∈ nodes, 0 ≤ k) :
    ∀ ch ∈ (lineOf d c nodes).text.toList, endsLine ch = false := by
  obtain ⟨letter, hletter, hblank, -⟩ := exists_letter d
  have hspace : ∀ ch ∈ " ".toList, endsLine ch = false :=
    List.forall_mem_singleton.mpr (by decide)
  have hdigits : ∀ digits ∈ nodes.map toString, ∀ ch ∈ digits.toList, endsLine ch = false := by
    rw [List.forall_mem_map]
    exact fun k hk ch hch => endsLine_of_not_blank ((isWord_nodeChars (hn k hk)).2 ch hch)
  have hfirst : ∀ ch ∈ d.letter.toList, endsLine ch = false := by
    rw [hletter]
    exact List.forall_mem_singleton.mpr (endsLine_of_not_blank hblank)
  show ∀ ch ∈ (d.letter ++ c.designator ++ " " ++ " ".intercalate (nodes.map toString) ++ " "
    ++ tailText (d.tail c)).toList, endsLine ch = false
  simp only [String.toList_append, List.forall_mem_append]
  exact ⟨⟨⟨⟨⟨hfirst, h.one_line⟩, hspace⟩, forall_mem_intercalate hspace hdigits⟩, hspace⟩,
    endsLine_tailText (Device.ending_iff.mpr h.model)⟩

/-- A line is an element line exactly if the free texts of its component do no harm. -/
theorem elementLine_iff (hn : ∀ k ∈ nodes, 0 ≤ k) :
    ElementLine d nodes (lineOf d c nodes).text ↔ c.Plain d := by
  refine ⟨plain_of_elementLine hn, fun h => ⟨?_, h.endsLine_text hn⟩⟩
  obtain ⟨name, hname, hwords⟩ := h.words_text hn
  exact ⟨name, tailWords (d.tail c), hwords, hname, Device.ending_iff.mpr h.model⟩

end Component

/-! ## Emitting -/

namespace Session

open Assembly

variable {c : Component} {d : Device}

/-- **Emitted lines and free text.** After any steps of a session, a component of a device kind
whose required pins are all wired is emitted as a line that carries the present nodes of their nets.
It is an element line over these nodes exactly if the designator holds no blank but at the end and
no line boundary, and the model of a diode or LED is empty or one word. -/
theorem emit_elementLine_iff (steps : List Step) (hc : c.kind = .device d)
    (hw : ∀ label ∈ d.requiredPins, Net.canonical (c.netOf label) ≠ "") :
    ∃ (b : Assembly) (line : DeviceLine) (nodes : List Int),
      (emit c).run (after steps) = .ok (some line) b ∧
      d.requiredPins.map (fun label => b.nodes.lookup (c.netOf label)) = nodes.map some ∧
      (ElementLine d nodes line.text ↔ c.Plain d) := by
  have hunwired : d.unwiredPins c = [] := Device.unwiredPins_eq_nil_iff.mpr hw
  have ht := numbered_after steps
  have hgrows := (after steps).nodes.enterAll_grows (d.requiredPins.map c.netOf)
  have hlookup := NodeTable.lookup_enterAll ht _ (List.forall_mem_map.mpr hw)
  rcases henter : (after steps).nodes.enterAll (d.requiredPins.map c.netOf) with ⟨nodes, t⟩
  rw [henter] at hgrows hlookup
  have hplace : (after steps).place c =
      .ok ({ after steps with nodes := t }.use (lineOf d c nodes).model?,
        some (lineOf d c nodes)) := by
    unfold place
    simp only [hc, placeDevice, hunwired, henter]
    rfl
  have hnonneg : ∀ k ∈ nodes, 0 ≤ k := by
    intro k hk
    have hmem : some k ∈ (d.requiredPins.map c.netOf).map t.lookup := by
      rw [hlookup]
      exact List.mem_map_of_mem hk
    obtain ⟨net, -, hnet⟩ := List.mem_map.mp hmem
    exact (hgrows.numbered ht).nonneg (Assoc.mem_of_lookup hnet)
  refine ⟨{ after steps with nodes := t }.use (lineOf d c nodes).model?, lineOf d c nodes, nodes,
    ?_, ?_, Component.elementLine_iff hnonneg⟩
  · rw [emit_run, hplace]
  · rw [use_nodes, ← hlookup, List.map_map]
    rfl

/-- A diode whose reference ends in a blank and whose model has blanks around it. -/
def blankEnds : Component :=
  { Component.wired "1 " (.device .diode) [("1", "in"), ("2", " GND ")] with
    model := some " 1N4007 " }

theorem emit_elementLine_blankEnds :
    ∃ (b : Assembly) (line : DeviceLine) (nodes : List Int),
      (emit blankEnds).run (after [.touch "out"]) = .ok (some line) b ∧
      b.nodes.lookup "in" :: [b.nodes.lookup " GND "] = nodes.map some ∧
      ElementLine .diode nodes line.text := by
  obtain ⟨b, line, nodes, hrun, hnodes, hform⟩ :=
    emit_elementLine_iff (c := blankEnds) (d := .diode) [.touch "out"] rfl (by decide)
  refine ⟨b, line, nodes, hrun, hnodes, hform.mpr ⟨?_, ?_, fun _ => ?_⟩⟩
  all_goals exact List.all_iff_forall_prop.mp (by decide)

/-- A resistor as the editor has it, with a reference of two lines. -/
def brokenReference : Json :=
  .object [("id", .text "r1"), ("ref", .text "1\n2"), ("kind", .text "resistor"),
    ("value", .text "1k"), ("pins", .object [("1", .text "a"), ("2", .text "0")])]

/-- The line of the resistor is two lines, and no element line of any two nodes. -/
theorem emit_brokenReference : ∃ c line b, Component.ofJson brokenReference = .ok c ∧
    c.kind = .device .resistor ∧ (∀ label ∈ ["1", "2"], Net.canonical (c.netOf label) ≠ "") ∧
    (emit c).run (after []) = .ok (some line) b ∧ line.text = "R1\n2 1 0 1000" ∧
    ∀ nodes, ¬ ElementLine .resistor nodes line.text := by
  refine ⟨_, _, _, rfl, rfl, by decide, rfl, ?_, fun nodes h => ?_⟩
  · decide +kernel
  · exact absurd (h.one_line '\n' (by decide +kernel)) (by decide)

end Session

end Breadboard
