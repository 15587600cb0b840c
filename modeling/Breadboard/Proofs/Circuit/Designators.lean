import Breadboard.Proofs.Circuit.Loading
import Breadboard.Proofs.Netlist.DeviceLines
import Breadboard.Proofs.Output.Probing

/-!
# Designators

A component without a reference is given one, made up from its kind name and the first eight
characters of its id. The components of a circuit are told apart by their designators if the
references that are there and those that are made up are apart (`Circuit.designators_nodup_iff`),
and then so are the lines of a deck and the entries of the instruments.
-/

namespace Breadboard

/-! ## References that are made up -/

namespace Component

variable {c : Component}

/-- The reference that is made up for a component. -/
def madeUp (c : Component) : String := c.kindName ++ String.ofList (c.id.toList.take 8)

/-- Whether a component has a reference of its own. -/
def isNamed (c : Component) : Bool := !c.ref.isEmpty

theorem designator_of_named (h : c.isNamed = true) : c.designator = c.ref := by
  unfold isNamed at h
  unfold designator
  rw [if_neg (by simpa using h)]

theorem designator_of_unnamed (h : c.isNamed = false) : c.designator = c.madeUp := by
  unfold isNamed at h
  unfold designator madeUp
  rw [if_pos (by simpa using h)]

theorem toList_madeUp (c : Component) :
    c.madeUp.toList = c.kindName.toList ++ c.id.toList.take 8 := by
  unfold madeUp
  rw [String.toList_append, String.toList_ofList]

end Component

namespace Circuit

open Component

variable {components : List Component}

/-- The designators of components, in order. -/
def designators (components : List Component) : List String := components.map designator

/-- The references that are made up, in order. -/
def madeUpRefs (components : List Component) : List String :=
  (components.filter fun c => !c.isNamed).map madeUp

/-- References that no two components share and that do not begin with a kind name. -/
structure RefsApart (components : List Component) : Prop where
  distinct : ((components.filter isNamed).map ref).Nodup
  apart : ∀ c ∈ components, c.isNamed = true →
    ∀ d ∈ components, ¬ d.kindName.toList <+: c.ref.toList

/-- No kind name is the beginning of another. -/
def KindsApart (components : List Component) : Prop :=
  ∀ c ∈ components, ∀ d ∈ components,
    c.kindName.toList <+: d.kindName.toList → c.kindName = d.kindName

theorem designators_perm (components : List Component) :
    ((components.filter isNamed).map ref ++ madeUpRefs components).Perm
      (designators components) := by
  have hnamed : (components.filter isNamed).map ref = (components.filter isNamed).map designator :=
    List.map_congr_left fun c hc => (designator_of_named (List.mem_filter.mp hc).2).symm
  have hunnamed : madeUpRefs components =
      (components.filter fun c => !c.isNamed).map designator := by
    refine List.map_congr_left fun c hc => (designator_of_unnamed ?_).symm
    simpa using (List.mem_filter.mp hc).2
  have hsplit := List.filter_append_perm isNamed components
  rw [hnamed, hunnamed, ← List.map_append]
  exact hsplit.map designator

theorem designators_nodup_iff_madeUpRefs (hrefs : RefsApart components) :
    (designators components).Nodup ↔ (madeUpRefs components).Nodup := by
  rw [← (designators_perm components).nodup_iff, List.nodup_append]
  constructor
  · rintro ⟨-, hmade, -⟩
    exact hmade
  · intro hmade
    refine ⟨hrefs.distinct, hmade, ?_⟩
    rintro s hs t ht rfl
    obtain ⟨c, hc, rfl⟩ := List.mem_map.mp hs
    obtain ⟨d, hd, hmadeUp⟩ := List.mem_map.mp ht
    obtain ⟨hc, hnamed⟩ := List.mem_filter.mp hc
    refine hrefs.apart c hc hnamed d (List.mem_filter.mp hd).1 ?_
    rw [← hmadeUp, toList_madeUp]
    exact List.prefix_append _ _

/-- References that are made up agree only in their parts if no kind name begins another. -/
theorem eq_of_madeUp_eq (hkinds : KindsApart components) {c d : Component} (hc : c ∈ components)
    (hd : d ∈ components) (h : c.madeUp = d.madeUp) :
    c.kindName = d.kindName ∧ c.id.toList.take 8 = d.id.toList.take 8 := by
  have hlist := congrArg String.toList h
  rw [toList_madeUp, toList_madeUp] at hlist
  have hkind : c.kindName = d.kindName := by
    have hleft : c.kindName.toList <+: d.kindName.toList ++ d.id.toList.take 8 :=
      hlist ▸ List.prefix_append _ _
    rcases List.prefix_or_prefix_of_prefix hleft (List.prefix_append _ _) with hp | hp
    · exact hkinds c hc d hd hp
    · exact (hkinds d hd c hc hp).symm
  rw [hkind] at hlist
  exact ⟨hkind, List.append_cancel_left hlist⟩

end Circuit

/-! ## Short ids -/

namespace Json

/-- An entry whose id is a text of at most eight characters. -/
inductive HasShortId : Json → Prop where
  | object {fields : List (String × Json)} {s : String} :
      field? fields "id" = some (.text s) → s.length ≤ 8 → HasShortId (.object fields)

variable {item : Json} {key : IdKey}

theorem IsComponent.key_of_short (h : item.IsComponent key) (hshort : item.HasShortId) :
    key = .text item.idText := by
  obtain ⟨hid, hkey, -, -, -⟩ := h
  obtain ⟨hid', -⟩ := hshort
  obtain rfl := Option.some.inj (hid.symm.trans hid')
  rw [idText_object, hid]
  exact (Option.some.inj hkey).symm

theorem length_idText_of_short (hshort : item.HasShortId) : item.idText.length ≤ 8 := by
  obtain ⟨hid, hlength⟩ := hshort
  rw [idText_object, hid]
  exact hlength

/-- Valid entries with short ids are told apart by the texts of their ids. -/
theorem AreComponents.nodup_idText {items : List Json} {keys : List IdKey}
    (h : AreComponents items keys) (hshort : ∀ item ∈ items, item.HasShortId) :
    (items.map idText).Nodup := by
  obtain ⟨hshape, hdistinct⟩ := h
  have hkeys : keys = (items.map idText).map IdKey.text := by
    clear hdistinct
    induction hshape with
    | nil => rfl
    | cons hfirst _ ih =>
      obtain ⟨hshort, hrest⟩ := List.forall_mem_cons.mp hshort
      rw [List.map_cons, List.map_cons, ← ih hrest, hfirst.key_of_short hshort]
  rw [hkeys] at hdistinct
  exact hdistinct.of_map IdKey.text

end Json

namespace Circuit

open Component

variable {j : Json} {circuit : Circuit}

theorem madeUpRefs_nodup_of_short (hload : ofDocument j = .ok circuit)
    (hshort : ∀ items, j.Lists items → ∀ item ∈ items, item.HasShortId)
    (hkinds : KindsApart circuit.components) : (madeUpRefs circuit.components).Nodup := by
  obtain ⟨items, keys, hlists, hkeys, hread⟩ := ofDocument_eq_ok_iff.mp hload
  have hids := hkeys.nodup_idText (hshort items hlists)
  rw [← hread.ids, List.Nodup, List.pairwise_map] at hids
  have hlength : ∀ c ∈ circuit.components, c.id.toList.take 8 = c.id.toList := by
    intro c hc
    have hmem : c.id ∈ items.map Json.idText := hread.ids ▸ List.mem_map_of_mem hc
    obtain ⟨item, hitem, hid⟩ := List.mem_map.mp hmem
    rw [← hid]
    exact List.take_of_length_le (Json.length_idText_of_short (hshort items hlists item hitem))
  unfold madeUpRefs
  rw [List.Nodup, List.pairwise_map]
  refine (hids.filter _).imp_of_mem fun {c d} hc hd hne heq => hne ?_
  have hc := (List.mem_filter.mp hc).1
  have hd := (List.mem_filter.mp hd).1
  have htake := (eq_of_madeUp_eq hkinds hc hd heq).2
  rw [hlength c hc, hlength d hd] at htake
  exact String.toList_inj.mp htake

end Circuit

/-! ## What designators are used for -/

/-- Lines with one name have one designator, for a letter is one character. -/
theorem DeviceLine.designator_of_name {l l' : DeviceLine} (h : l.name = l'.name) :
    l.designator = l'.designator := by
  obtain ⟨x, hx, -⟩ := exists_letter l.device
  obtain ⟨y, hy, -⟩ := exists_letter l'.device
  have hlist := congrArg String.toList h
  rw [toList_name, toList_name, hx, hy] at hlist
  exact String.toList_inj.mp (List.cons.inj hlist).2

theorem Assembly.designators_sublist {components : List Component} {b : Assembly}
    {lines : List DeviceLine} (h : start.run components = .ok (b, lines)) :
    (lines.map DeviceLine.designator).Sublist (Circuit.designators components) := by
  refine run_induction (P := fun done _ lines =>
    (lines.map DeviceLine.designator).Sublist (Circuit.designators done)) ?_ [] [] .slnil h
  intro done a lines c b line hdone hplaced
  unfold Circuit.designators at hdone ⊢
  rw [List.map_append, List.map_append]
  refine hdone.append ?_
  cases hplaced with
  | device => exact .refl _
  | _ => exact List.nil_sublist _

theorem Deck.nodup_names {components : List Component} {s : Settings} {deck : Deck}
    (hdeck : ofComponents components s = .ok deck) (h : (Circuit.designators components).Nodup) :
    (deck.deviceLines.map DeviceLine.name).Nodup := by
  obtain ⟨a, hrun, -, -⟩ := exists_run hdeck
  have hlines := (Assembly.designators_sublist hrun).nodup h
  rw [List.Nodup, List.pairwise_map] at hlines ⊢
  exact hlines.imp fun hne heq => hne (DeviceLine.designator_of_name heq)

theorem Probe.readAll_of_nodup {components : List Component}
    (h : (Circuit.designators components).Nodup) (l : NetSeries) :
    readAll components l =
      (components.filter Component.isInstrument).map fun c => (c.designator, readings l c) := by
  refine Assoc.ofList_of_nodup ?_
  unfold Assoc.keys
  rw [List.map_map]
  exact (List.filter_sublist.map Component.designator).nodup h

namespace Circuit

variable {j : Json} {circuit : Circuit}

/-- **Designators tell components apart.** Where references are apart, no two components have one
designator exactly if no two references that are made up agree. This is so if ids are short texts
and no kind name begins another. The lines of a deck have names of their own then, and each
instrument its own entry. -/
theorem designators_nodup_iff (hload : ofDocument j = .ok circuit)
    (hrefs : RefsApart circuit.components) :
    ((designators circuit.components).Nodup ↔ (madeUpRefs circuit.components).Nodup) ∧
    ((∀ items, j.Lists items → ∀ item ∈ items, item.HasShortId) → KindsApart circuit.components →
      (designators circuit.components).Nodup) ∧
    ((designators circuit.components).Nodup →
      (∀ s deck, Deck.ofComponents circuit.components s = .ok deck →
        (deck.deviceLines.map DeviceLine.name).Nodup) ∧
      ∀ l, Probe.readAll circuit.components l =
        (circuit.components.filter Component.isInstrument).map fun c =>
          (c.designator, Probe.readings l c)) := by
  have hiff := designators_nodup_iff_madeUpRefs hrefs
  exact ⟨hiff, fun hshort hkinds => hiff.mpr (madeUpRefs_nodup_of_short hload hshort hkinds),
    fun h => ⟨fun s deck hdeck => Deck.nodup_names hdeck h, Probe.readAll_of_nodup h⟩⟩

/-- A document with a component of its own reference, one without and two probes without. -/
def shortIds : Json := .object [("components", .list [
  .object [("id", .text "1"), ("ref", .text "R1"), ("kind", .text "resistor")],
  .object [("id", .text "2"), ("kind", .text "resistor")],
  .object [("id", .text "3"), ("kind", .text "probe")],
  .object [("id", .text "4"), ("kind", .text "probe")]])]

theorem designators_nodup_shortIds : ∃ circuit, ofDocument shortIds = .ok circuit ∧
    designators circuit.components = ["R1", "resistor2", "probe3", "probe4"] ∧
    (designators circuit.components).Nodup ∧
    ∀ l, (Probe.readAll circuit.components l).map (·.1) = ["probe3", "probe4"] := by
  have hload : ofDocument shortIds = .ok ⟨[
      ⟨"1", "R1", .device .resistor, none, none, [], "resistor", ""⟩,
      ⟨"2", "", .device .resistor, none, none, [], "resistor", ""⟩,
      ⟨"3", "", .displayOnly, none, none, [], "probe", ""⟩,
      ⟨"4", "", .displayOnly, none, none, [], "probe", ""⟩]⟩ := rfl
  obtain ⟨-, hapart, huses⟩ := designators_nodup_iff hload ⟨by decide, by decide⟩
  have hnodup := hapart ?_ (by unfold KindsApart; decide)
  · exact ⟨_, hload, rfl, hnodup, fun l => congrArg (List.map (·.1)) ((huses hnodup).2 l)⟩
  · intro items hlists
    obtain rfl := hlists.unique ⟨_, rfl, rfl⟩
    simp only [List.forall_mem_cons]
    exact ⟨⟨rfl, by decide⟩, ⟨rfl, by decide⟩, ⟨rfl, by decide⟩, ⟨rfl, by decide⟩, nofun⟩

/-- A document with two resistors and two probes, whose ids agree in their first eight
characters. -/
def longIds : Json := .object [("components", .list [
  .object [("id", .text "component-1"), ("kind", .text "resistor"),
    ("pins", .object [("1", .text "a"), ("2", .text "0")])],
  .object [("id", .text "component-2"), ("kind", .text "resistor"),
    ("pins", .object [("1", .text "b"), ("2", .text "0")])],
  .object [("id", .text "component-3"), ("kind", .text "probe")],
  .object [("id", .text "component-4"), ("kind", .text "probe")]])]

/-- A document with two kind names of which one begins the other. -/
def nestedKinds : Json := .object [("components", .list [
  .object [("id", .text "bc"), ("kind", .text "a")],
  .object [("id", .text "c"), ("kind", .text "ab")]])]

/-- Neither document has a reference, and both are loaded; the designators clash, and so do the
names of the lines and the entries of the probes. -/
theorem designators_not_nodup :
    (∃ circuit, ofDocument longIds = .ok circuit ∧ RefsApart circuit.components ∧
      designators circuit.components =
        ["resistorcomponen", "resistorcomponen", "probecomponen", "probecomponen"] ∧
      (∃ deck, Deck.ofComponents circuit.components Settings.defaults = .ok deck ∧
        deck.deviceLines.map DeviceLine.name = ["Rresistorcomponen", "Rresistorcomponen"]) ∧
      ∀ l, (Probe.readAll circuit.components l).map (·.1) = ["probecomponen"]) ∧
    ∃ circuit, ofDocument nestedKinds = .ok circuit ∧ RefsApart circuit.components ∧
      designators circuit.components = ["abc", "abc"] := by
  refine ⟨⟨_, rfl, ⟨by decide, by decide⟩, rfl, ?_, fun l => rfl⟩,
    ⟨_, rfl, ⟨by decide, by decide⟩, rfl⟩⟩
  obtain ⟨deck, hdeck, hlines, -⟩ := Deck.exists_of_run
    [⟨"component-1", "", .device .resistor, none, none, [("1", ⟨"a", .null⟩), ("2", ⟨"0", .null⟩)],
        "resistor", ""⟩,
      ⟨"component-2", "", .device .resistor, none, none, [("1", ⟨"b", .null⟩), ("2", ⟨"0", .null⟩)],
        "resistor", ""⟩,
      ⟨"component-3", "", .displayOnly, none, none, [], "probe", ""⟩,
      ⟨"component-4", "", .displayOnly, none, none, [], "probe", ""⟩] Settings.defaults
    ⟨⟨[("0", 0), ("a", 1), ("b", 2)]⟩, [], []⟩
    [⟨.resistor, "resistorcomponen", [1, 0], .value 1e3⟩,
      ⟨.resistor, "resistorcomponen", [2, 0], .value 1e3⟩] (by decide +kernel)
  exact ⟨deck, hdeck, by rw [hlines]; rfl⟩

end Circuit

end Breadboard
