import Breadboard.Proofs.Netlist.DeviceLines
import Breadboard.Proofs.Netlist.EndLines
import Breadboard.Proofs.Netlist.TwoPass

/-!
# Models that are not defined

Diodes, LEDs and transistors refer to a model by name. The cards that define models stand in every
deck, whatever the settings are. A name that no card defines is reported once, however many lines
refer to it, and no other name is; the families of transistors are all defined.
-/

namespace Breadboard

open Text

/-! ## The names that lines refer to -/

/-- The devices that are described by a model. -/
def Device.modelled : List Device := [.diode, .led, .transistor]

namespace DeviceLine

/-- The line of a device that is described by a model, with this name behind its nodes. -/
def Names (l : DeviceLine) (name : String) : Prop :=
  l.device ∈ Device.modelled ∧
    l.text = l.name ++ " " ++ " ".intercalate (l.nodes.map toString) ++ " " ++ name

variable {l : DeviceLine} {name : String}

theorem exists_model?_iff (hf : l.Formed) :
    (∃ name, l.model? = some name) ↔ l.device ∈ Device.modelled := by
  obtain ⟨c, htail⟩ := hf.tail
  unfold model?
  rw [htail]
  cases l.device <;> simp [Device.tail, Device.modelled]

theorem tail_eq_model (h : l.model? = some name) : l.tail = .model name := by
  unfold model? at h
  split at h
  · next htail =>
    rw [htail, Option.some.inj h]
  · cases h

/-- The name behind the nodes of a line is the model it refers to. -/
theorem names_iff (hf : l.Formed) : l.Names name ↔ l.model? = some name := by
  constructor
  · rintro ⟨hd, htext⟩
    obtain ⟨found, hfound⟩ := (exists_model?_iff hf).mpr hd
    have hlist := congrArg String.toList htext
    rw [text, tail_eq_model hfound, tailText] at hlist
    simp only [String.toList_append, List.append_cancel_left_eq, String.toList_inj] at hlist
    rw [hfound, hlist]
  · intro h
    refine ⟨(exists_model?_iff hf).mp ⟨name, h⟩, ?_⟩
    rw [text, tail_eq_model h, tailText]

theorem isDefined_of_transistor (hf : l.Formed) (hd : l.device = .transistor)
    (h : l.model? = some name) : DeviceModel.isDefined name := by
  obtain ⟨c, htail⟩ := hf.tail
  rw [tail_eq_model h, hd] at htail
  obtain rfl : name = DeviceModel.family c := LineTail.model.inj htail
  exact DeviceModel.isDefined_family c

end DeviceLine

namespace Deck

/-! ## The cards in a deck -/

/-- The lines of the model library in a deck. -/
def libraryLines : List String :=
  "* --- Device models ---" :: DeviceModel.library.map (·.2)

/-- The name that a line defines as a model: the word behind `.model`. -/
def cardName? (line : String) : Option String :=
  match words line.toList with
  | word :: name :: _ => if word = ".model".toList then some (String.ofList name) else none
  | _ => none

/-- A line of the library defines a model of this name. -/
def Defines (name : String) : Prop := ∃ line ∈ libraryLines, cardName? line = some name

theorem cardName?_of_words {line name : String} {cs : List Char} (hline : line.toList = cs)
    (h : (words cs).take 2 = [".model".toList, name.toList]) : cardName? line = some name := by
  unfold cardName?
  rw [hline]
  generalize words cs = ws at h ⊢
  rcases ws with _ | ⟨word, _ | ⟨found, rest⟩⟩
  · cases h
  · cases h
  · obtain ⟨rfl, rfl⟩ : word = ".model".toList ∧ found = name.toList := by simpa using h
    simp only [if_true, String.ofList_toList]

/-- Each card of the library defines the model whose name it is listed with. -/
theorem cardName?_library : ∀ p ∈ DeviceModel.library, cardName? p.2 = some p.1 := by
  simp only [DeviceModel.library, List.forall_mem_cons, List.not_mem_nil, false_imp_iff,
    implies_true, and_true]
  and_intros
  all_goals
    first
    | exact cardName?_of_words (toList_of_literal rfl) (by decide +kernel)
    | exact cardName?_of_words (toList_append_of_literal rfl rfl) (by decide +kernel)

theorem defines_iff {name : String} : Defines name ↔ DeviceModel.isDefined name = true := by
  unfold Defines DeviceModel.isDefined libraryLines
  rw [List.contains_iff_mem, List.mem_map]
  constructor
  · rintro ⟨line, hline, hname⟩
    rcases List.mem_cons.mp hline with rfl | hcard
    · have hheader : cardName? "* --- Device models ---" = none := by decide +kernel
      rw [hheader] at hname
      cases hname
    · obtain ⟨p, hp, rfl⟩ := List.mem_map.mp hcard
      rw [cardName?_library p hp] at hname
      exact ⟨p, hp, Option.some.inj hname⟩
  · rintro ⟨p, hp, rfl⟩
    exact ⟨p.2, List.mem_cons_of_mem _ (List.mem_map_of_mem hp), cardName?_library p hp⟩

variable {components : List Component} {s : Settings} {deck : Deck}

theorem exists_fixedLines_eq : ∃ after, fixedLines = "" :: (libraryLines ++ after) :=
  ⟨fixedLines.drop 9, rfl⟩

theorem flatMap_pieces_libraryLines : libraryLines.flatMap pieces = libraryLines := by
  obtain ⟨after, hfixed⟩ := exists_fixedLines_eq
  have hpieces : ∀ l ∈ libraryLines, pieces l = [l] := by
    intro l hl
    have hmem : l ∈ fixedLines := by
      rw [hfixed]
      exact List.mem_cons_of_mem _ (List.mem_append_left after hl)
    have hline := pieces_intercalate (List.cons_ne_nil l [])
      (List.forall_mem_singleton.mpr fun hnewline =>
        absurd (isPrintableAscii_fixedLines l hmem '\n' hnewline) (by decide))
    rwa [String.intercalate_singleton] at hline
  rw [List.flatMap_congr hpieces, List.flatMap_singleton']

/-- The library stands in every deck, line by line, whatever the settings are. -/
theorem libraryLines_within_text (h : ofComponents components s = .ok deck) :
    libraryLines <:+: pieces deck.text := by
  obtain ⟨middle, hfixed⟩ := exists_fixedLines_eq
  obtain ⟨before, after, hlines⟩ : ∃ before after,
      lines s (deck.deviceLines.map DeviceLine.text) deck.nodeMap =
        before ++ (libraryLines ++ after) ++ [".endc"] := by
    refine ⟨s.title :: "" :: deck.deviceLines.map DeviceLine.text ++ [""],
      middle ++ transientCommand s :: printLines deck.nodeMap, ?_⟩
    rw [lines_eq_append, hfixed]
    simp only [List.append_assoc, List.cons_append, List.nil_append]
  have hend : ".endc".toList.getLast? = some 'c' := rfl
  have hlast := getLast?_intercalate "\n" (before ++ (libraryLines ++ after)) hend
  rw [text_eq_endOnce h, hlines, pieces_endOnce_of_getLast? hlast (by decide) (by decide),
    pieces_intercalate_eq_flatMap (by simp), List.flatMap_append, List.flatMap_append,
    List.flatMap_append, flatMap_pieces_libraryLines, libraryLines, List.append_assoc,
    List.cons_append, List.cons_append, dropWhile_append_cons (by decide)]
  refine ⟨(before.flatMap pieces).dropWhile (· == ""),
    after.flatMap pieces ++ [".endc"].flatMap pieces ++ [".end", ""], ?_⟩
  simp only [List.append_assoc, List.cons_append]

/-! ## What is reported -/

theorem toList_message_undefinedModel (name : String) :
    (Diagnostic.undefinedModel name).message.toList =
      "Model '".toList ++ (name.toList ++ "' has no definition in the model library".toList) := by
  show ("Model '" ++ name ++ "' has no definition in the model library").toList = _
  rw [String.toList_append, String.toList_append, List.append_assoc]

theorem message_undefinedModel_injective :
    Function.Injective fun name => (Diagnostic.undefinedModel name).message := by
  intro name other h
  have hlist := congrArg String.toList h
  simp only [toList_message_undefinedModel, List.append_cancel_left_eq,
    List.append_cancel_right_eq, String.toList_inj] at hlist
  exact hlist

theorem toList_skipText (c : Component) :
    ∃ rest, (TwoPass.skipText c).toList = "Skipped ".toList ++ rest := by
  show ∃ rest, ("Skipped " ++ c.designator ++ ": " ++ TwoPass.skipReason c).toList = _
  rw [String.append_assoc, String.append_assoc, String.toList_append]
  exact ⟨_, rfl⟩

/-- A notice about a component is none about a model. -/
theorem not_prefix_skipText (c : Component) :
    ¬ "Model '".toList <+: (TwoPass.skipText c).toList := by
  obtain ⟨rest, hskip⟩ := toList_skipText c
  rw [hskip]
  rintro ⟨more, hmore⟩
  cases hmore

/-- A line refers to a model of this name, and no card of the library defines it. -/
def LeavesUndefined (deck : Deck) (name : String) : Prop :=
  (∃ l ∈ deck.deviceLines, l.Names name) ∧ ¬ Defines name

/-- The notices about models are those about the names that are left undefined, each once. -/
theorem mem_modelTexts_iff (h : ofComponents components s = .ok deck) {text : String} :
    text ∈ TwoPass.modelTexts deck.deviceLines ↔
      ∃ name, deck.LeavesUndefined name ∧ (Diagnostic.undefinedModel name).message = text := by
  have hformed := formed_of_mem h
  unfold TwoPass.modelTexts LeavesUndefined
  rw [List.mem_map]
  refine exists_congr fun name => and_congr_left fun _ => ?_
  rw [List.mem_filter, List.mem_eraseDups, List.mem_filterMap, defines_iff]
  refine and_congr (exists_congr fun l => and_congr_right fun hl => ?_) (by simp)
  exact (DeviceLine.names_iff (hformed l hl)).symm

theorem nodup_modelTexts (lines : List DeviceLine) : (TwoPass.modelTexts lines).Nodup := by
  unfold TwoPass.modelTexts
  exact ((nodup_eraseDups _).filter _).map message_undefinedModel_injective

theorem count_diagnostics (h : ofComponents components s = .ok deck) (name : String) :
    deck.diagnostics.count (Diagnostic.undefinedModel name).message =
      (TwoPass.modelTexts deck.deviceLines).count (Diagnostic.undefinedModel name).message := by
  rw [TwoPass.diagnostics_eq h, List.count_append, Nat.add_eq_right, List.count_eq_zero,
    List.mem_map]
  rintro ⟨c, -, hskip⟩
  refine not_prefix_skipText c ?_
  rw [hskip, toList_message_undefinedModel]
  exact List.prefix_append _ _

/-- **No undefined model goes unreported.** The library stands in the deck. A name that a line of a
diode, an LED or a transistor ends in is defined by one of its cards or is named by exactly one
notice, and no notice names another model. Each such line ends in one name, and that of a transistor
is defined. -/
theorem undefined_reported_once (h : ofComponents components s = .ok deck) :
    libraryLines <:+: pieces deck.text ∧
      (∀ name, (deck.LeavesUndefined name →
          deck.diagnostics.count (Diagnostic.undefinedModel name).message = 1) ∧
        (¬ deck.LeavesUndefined name →
          deck.diagnostics.count (Diagnostic.undefinedModel name).message = 0)) ∧
      (∀ text ∈ deck.diagnostics, "Model '".toList <+: text.toList →
        ∃ name, deck.LeavesUndefined name ∧ (Diagnostic.undefinedModel name).message = text) ∧
      ∀ l ∈ deck.deviceLines, l.device ∈ Device.modelled →
        ∃ name, (∀ other, l.Names other ↔ other = name) ∧
          (l.device = .transistor → Defines name) := by
  refine ⟨libraryLines_within_text h, fun name => ?_, fun text htext hmodel => ?_,
    fun l hl hd => ?_⟩
  · rw [count_diagnostics h]
    refine ⟨fun hundefined => ?_, fun hdefined => List.count_eq_zero.mpr fun hmem => ?_⟩
    · exact List.count_eq_one_of_mem (nodup_modelTexts _)
        ((mem_modelTexts_iff h).mpr ⟨name, hundefined, rfl⟩)
    · obtain ⟨other, hother, hmessage⟩ := (mem_modelTexts_iff h).mp hmem
      exact hdefined (message_undefinedModel_injective hmessage ▸ hother)
  · rw [TwoPass.diagnostics_eq h] at htext
    rcases List.mem_append.mp htext with hskip | hreport
    · obtain ⟨c, -, rfl⟩ := List.mem_map.mp hskip
      exact absurd hmodel (not_prefix_skipText c)
    · exact (mem_modelTexts_iff h).mp hreport
  · have hformed := formed_of_mem h l hl
    obtain ⟨name, hname⟩ := (DeviceLine.exists_model?_iff hformed).mpr hd
    refine ⟨name, fun other => ?_, fun htransistor => ?_⟩
    · rw [DeviceLine.names_iff hformed, hname, Option.some.injEq, eq_comm]
    · exact defines_iff.mpr (DeviceLine.isDefined_of_transistor hformed htransistor hname)

/-- Two diodes of one model that the library does not have, a diode that declares none, and a
transistor whose declared model is no name of the library but holds one. -/
def borrowed : List Component :=
  [{ Component.wired "1" (.device .diode) [("1", "a"), ("2", "0")] with model := some " 1N5819" },
    { Component.wired "2" (.device .diode) [("1", "0"), ("2", "a")] with model := some "1N5819 " },
    .wired "3" (.device .diode) [("1", "a"), ("2", "0")],
    { Component.wired "4" (.device .transistor) [("C", "a"), ("B", "a"), ("E", "0")] with
      model := some "a bc549c" }]

theorem undefined_reported_once_borrowed :
    ∃ deck, ofComponents borrowed .defaults = .ok deck ∧
      deck.deviceLines.map DeviceLine.text =
        ["D1 1 0 1N5819", "D2 0 1 1N5819", "D3 1 0 D1N4148", "Q4 1 1 0 BC549"] ∧
      deck.diagnostics.count "Model '1N5819' has no definition in the model library" = 1 ∧
      deck.diagnostics.count "Model 'D1N4148' has no definition in the model library" = 0 := by
  obtain ⟨deck, h, hlines, -⟩ := exists_of_run borrowed .defaults
    ⟨⟨[("0", 0), ("a", 1)]⟩, [], ["1N5819", "D1N4148", "BC549"]⟩
    [⟨.diode, "1", [1, 0], .model "1N5819"⟩, ⟨.diode, "2", [0, 1], .model "1N5819"⟩,
      ⟨.diode, "3", [1, 0], .model "D1N4148"⟩, ⟨.transistor, "4", [1, 1, 0], .model "BC549"⟩]
    (by decide +kernel)
  obtain ⟨-, hreported, -⟩ := undefined_reported_once h
  have hdefined (name : String) : ¬ Defines name ↔ DeviceModel.isDefined name = false := by
    rw [defines_iff, Bool.not_eq_true]
  refine ⟨deck, h, by rw [hlines]; rfl, (hreported "1N5819").1 ⟨?_, ?_⟩, (hreported "D1N4148").2 ?_⟩
  · rw [hlines]
    exact ⟨_, List.mem_cons_self, by decide, rfl⟩
  · exact (hdefined "1N5819").mpr (by decide)
  · rintro ⟨-, hundefined⟩
    exact absurd ((hdefined "D1N4148").mp hundefined) (by decide)

end Deck

end Breadboard
