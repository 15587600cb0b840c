import Breadboard.Proofs.Netlist.Reordering

/-!
# The nodes of junctions

The signals that are wired to one junction have one node, and never that of ground: a junction
leaves ground out. A junction may number nets that no device is wired to, so a node of the map is
not always the node of a pin; the nodes on device lines are those of nets on placed pins
(`Connectivity.exists_mem_nodes_iff`).
-/

namespace Breadboard.Connectivity

open Relation

variable {components : List Component} {s : Settings} {deck : Deck} {c : Component} {x y : String}

/-! ## Nets on one junction -/

/-- **One electrical point.** Two nets wired to one junction, blanks apart, are the same node
exactly when both are ground or neither is. -/
theorem nodeOf_eq_iff_isGround_eq (h : Deck.ofComponents components s = .ok deck)
    (hc : c ∈ components) (hk : c.kind = .junction) (hx : x ∈ c.nets) (hy : y ∈ c.nets)
    (hxb : Net.canonical x ≠ "") (hyb : Net.canonical y ≠ "") :
    deck.nodeMap.nodeOf x = deck.nodeMap.nodeOf y ↔ Net.isGround x = Net.isGround y := by
  obtain ⟨a, hrun, hmap, -⟩ := Deck.exists_run h
  have hg := Assembly.run_grows hrun
  have hzero := (hg.numbered NodeTable.numbered_start).nodeOf_eq_zero_iff
  rw [hmap]
  by_cases hgx : Net.isGround x = true
  · rw [(hzero x).mpr hgx, hgx, eq_comm, hzero y, eq_comm]
  · by_cases hgy : Net.isGround y = true
    · rw [(hzero y).mpr hgy, hgy, hzero x]
    · have hsx := Net.isSignal_canonical (not_or.mpr ⟨hxb, mt beq_iff_eq.mpr hgx⟩)
      have hsy := Net.isSignal_canonical (not_or.mpr ⟨hyb, mt beq_iff_eq.mpr hgy⟩)
      have hlink : Linked components (Net.canonical x) (Net.canonical y) :=
        .single ⟨hsx, hsy, c, hc, hk, ⟨x, hx, rfl⟩, y, hy, rfl⟩
      rw [Bool.not_eq_true] at hgx hgy
      exact iff_of_true (lookup_eq_of_linked hg hlink) (hgx.trans hgy.symm)

/-- A junction of two signals and ground. -/
def earthedJunction : Component := .wired "J1" .junction [("1", "a"), ("2", "GND"), ("3", " b")]

/-- A junction of two signals and ground, and devices on one of the signals. -/
def earthed : List Component :=
  [earthedJunction, .wired "1" (.device .resistor) [("1", "a"), ("2", "c")],
    .wired "2" (.device .resistor) [("1", "c"), ("2", "0")]]

theorem exists_deck_earthed : ∃ deck, Deck.ofComponents earthed .defaults = .ok deck ∧
    deck.nodeMap.entries = [("0", 0), ("a", 1), ("b", 1), ("c", 2)] := by
  obtain ⟨deck, h, -, hmap⟩ := Deck.exists_of_run earthed .defaults
    ⟨⟨[("0", 0), ("a", 1), ("b", 1), ("c", 2)]⟩, [], []⟩
    [⟨.resistor, "1", [1, 2], .value 1e3⟩, ⟨.resistor, "2", [2, 0], .value 1e3⟩]
    (by decide +kernel)
  exact ⟨deck, h, by rw [hmap]; rfl⟩

theorem nodeOf_eq_iff_isGround_eq_earthed :
    ∃ deck, Deck.ofComponents earthed .defaults = .ok deck ∧
      deck.nodeMap.nodeOf "a" = deck.nodeMap.nodeOf " b" ∧
      deck.nodeMap.nodeOf "a" ≠ deck.nodeMap.nodeOf "GND" := by
  obtain ⟨deck, h, -⟩ := exists_deck_earthed
  have hmem : earthedJunction ∈ earthed := List.mem_cons_self
  refine ⟨deck, h, ?_, ?_⟩
  · exact (nodeOf_eq_iff_isGround_eq h hmem rfl (by decide) (by decide) (by decide)
      (by decide)).mpr (by decide)
  · exact (nodeOf_eq_iff_isGround_eq h hmem rfl (by decide) (by decide) (by decide)
      (by decide)).not.mpr (by decide)

/-- A net that a junction is to join with ground is not node 0. -/
theorem ground_pin_not_joined :
    ∃ deck, Deck.ofComponents earthed .defaults = .ok deck ∧
      deck.nodeMap.nodeOf "a" = some 1 ∧ deck.nodeMap.nodeOf "GND" = some 0 ∧
      ¬ ∀ c ∈ earthed, c.kind = .junction → ∀ x ∈ c.nets, ∀ y ∈ c.nets, Net.canonical x ≠ "" →
        Net.canonical y ≠ "" → deck.nodeMap.nodeOf x = deck.nodeMap.nodeOf y := by
  obtain ⟨deck, h, hentries⟩ := exists_deck_earthed
  have ha : deck.nodeMap.nodeOf "a" = some 1 := by
    unfold NodeMap.nodeOf NodeMap.get?
    rw [hentries]
    decide
  have hground : deck.nodeMap.nodeOf "GND" = some 0 := by
    unfold NodeMap.nodeOf NodeMap.get?
    rw [hentries]
    decide
  refine ⟨deck, h, ha, hground, fun hclaim => ?_⟩
  have hsame := hclaim earthedJunction List.mem_cons_self rfl "a" (by decide) "GND" (by decide)
    (by decide) (by decide)
  rw [ha, hground] at hsame
  cases hsame

/-! ## Nodes on device lines -/

theorem exists_mem_nodes_iff (h : Deck.ofComponents components s = .ok deck) {k : Int} :
    (∃ line ∈ deck.deviceLines, k ∈ line.nodes) ↔
      ∃ name, OnPlacedPin components name ∧ deck.nodeMap.get? name = some k := by
  obtain ⟨a, hrun, hmap, -⟩ := Deck.exists_run h
  have hlines := fun {line} =>
    mem_iff_of_mapM_eq_some (TwoPass.mapM_lineAt_of_run hrun) (b := line)
  rw [hmap]
  constructor
  · rintro ⟨line, hline, hk⟩
    obtain ⟨⟨d, c⟩, hp, hat⟩ := hlines.mp hline
    obtain ⟨nodes, hnodes, rfl⟩ := Option.map_eq_some_iff.mp hat
    obtain ⟨net, hnet, hk⟩ := (mem_iff_of_mapM_eq_some hnodes).mp hk
    obtain ⟨label, hlabel, rfl⟩ := List.mem_map.mp hnet
    obtain ⟨hc, hkind, hplaced⟩ := TwoPass.mem_placed.mp hp
    exact ⟨_, ⟨c, hc, d, hkind, hplaced, label, hlabel, rfl⟩, hk⟩
  · rintro ⟨_, ⟨c, hc, d, hkind, hplaced, label, hlabel, rfl⟩, hk⟩
    have hp : (d, c) ∈ TwoPass.placed components := TwoPass.mem_placed.mpr ⟨hc, hkind, hplaced⟩
    obtain ⟨line, hline, hat⟩ :=
      exists_mem_of_mapM_eq_some (TwoPass.mapM_lineAt_of_run hrun) hp
    obtain ⟨nodes, hnodes, rfl⟩ := Option.map_eq_some_iff.mp hat
    exact ⟨_, hline, (mem_iff_of_mapM_eq_some hnodes).mpr
      ⟨c.netOf label, List.mem_map_of_mem hlabel, hk⟩⟩

/-- The nodes of a table but ground are those of signals on placed pins and on joints. -/
theorem mem_indices_iff {t : NodeTable}
    (hg : NodeTable.start.Grows (components.flatMap Component.bundles) t) {k : Int} :
    k ∈ t.toNodeMap.indices ↔ ∃ name, Net.IsSignal name ∧
      (OnPlacedPin components name ∨ OnJoint components name) ∧
        t.entries.lookup name = some k := by
  have ht := hg.numbered NodeTable.numbered_start
  rw [NodeMap.mem_indices]
  constructor
  · rintro ⟨hk, name, he⟩
    have hng : name ≠ Net.ground := mt (ht.eq_zero_iff he).mpr hk
    have hkey : name ∈ Assoc.keys t.entries := List.mem_map_of_mem he
    obtain ⟨hs, hon⟩ := exists_bundle_iff.mp ((hg.mem_keys.mp hkey).resolve_left hng)
    exact ⟨name, hs, hon, Assoc.lookup_of_mem ht.distinct he⟩
  · rintro ⟨name, hs, -, hl⟩
    have he := Assoc.mem_of_lookup hl
    exact ⟨mt (ht.eq_zero_iff he).mp hs.not_ground, name, he⟩

/-- **Nodes on lines.** Every node of a map but ground is on a device line exactly when every signal
that a junction joins is linked to a net on a required pin of a placed device. -/
theorem forall_indices_on_line_iff (h : Deck.ofComponents components s = .ok deck) :
    (∀ k ∈ deck.nodeMap.indices, ∃ line ∈ deck.deviceLines, k ∈ line.nodes) ↔
      ∀ name, Net.IsSignal name → OnJoint components name →
        ∃ pin, OnPlacedPin components pin ∧ Linked components name pin := by
  have hline := fun k => exists_mem_nodes_iff h (k := k)
  obtain ⟨a, hrun, hmap, -⟩ := Deck.exists_run h
  have hg := Assembly.run_grows hrun
  have ht := hg.numbered NodeTable.numbered_start
  rw [hmap] at hline ⊢
  simp only [hline]
  constructor
  · intro hall name hs hjoint
    have hkey : name ∈ Assoc.keys a.nodes.entries :=
      hg.mem_keys.mpr (.inr (exists_bundle_iff.mpr ⟨hs, .inr hjoint⟩))
    obtain ⟨⟨_, k⟩, he, rfl⟩ := List.mem_map.mp hkey
    have hl := Assoc.lookup_of_mem ht.distinct he
    obtain ⟨pin, hpin, hpl⟩ := hall k ((mem_indices_iff hg).mpr ⟨_, hs, .inr hjoint, hl⟩)
    -- a chain ends at a signal, so the net found on the line must not be ground
    have hpg : pin ≠ Net.ground := by
      rintro rfl
      obtain rfl : k = 0 := Option.some.inj (hpl.symm.trans ht.lookup_ground)
      exact hs.not_ground ((ht.eq_zero_iff he).mp rfl)
    refine ⟨pin, hpin, ReflTransGen.lift' id (fun x y hxy => ?_) _ _
      (hg.linked hs.not_ground hpg hl hpl)⟩
    exact linked_of_together hxy
  · intro hall k hk
    obtain ⟨name, hs, hpin | hjoint, hl⟩ := (mem_indices_iff hg).mp hk
    · exact ⟨name, hpin, hl⟩
    · obtain ⟨pin, hpin, hlink⟩ := hall name hs hjoint
      exact ⟨pin, hpin, (lookup_eq_of_linked hg hlink).symm.trans hl⟩

/-- A junction that brings a net to that of a device. -/
def attached : List Component :=
  [.wired "1" (.device .resistor) [("1", "a"), ("2", "0")],
    .wired "J1" .junction [("1", " b"), ("2", "a")]]

theorem forall_indices_on_line_iff_attached :
    ∃ deck, Deck.ofComponents attached .defaults = .ok deck ∧
      ∀ k ∈ deck.nodeMap.indices, ∃ line ∈ deck.deviceLines, k ∈ line.nodes := by
  obtain ⟨deck, h, -, -⟩ := Deck.exists_of_run attached .defaults
    ⟨⟨[("0", 0), ("a", 1), ("b", 1)]⟩, [], []⟩ [⟨.resistor, "1", [1, 0], .value 1e3⟩]
    (by decide +kernel)
  refine ⟨deck, h, (forall_indices_on_line_iff h).mpr fun name hs hjoint => ⟨"a", ?_, ?_⟩⟩
  · exact ⟨.wired "1" (.device .resistor) [("1", "a"), ("2", "0")], List.mem_cons_self, .resistor,
      rfl, by decide, "1", by decide, by decide⟩
  · obtain ⟨c, hc, hk, hw, -⟩ := hjoint
    have ha : Net.IsSignal "a" := ⟨by decide, by decide, by decide⟩
    rcases List.mem_pair.mp hc with rfl | rfl
    · cases hk
    · exact .single ⟨hs, ha, _, hc, hk, hw, "a", by decide, by decide⟩

/-- A device, and a junction of nets that are wired to nothing else. -/
def unattached : List Component :=
  [.wired "1" (.device .resistor) [("1", "a"), ("2", "0")],
    .wired "J1" .junction [("1", "b"), ("2", "c")]]

/-- The node of a junction of its own is printed, and no line has it. -/
theorem printed_without_line :
    ∃ deck, Deck.ofComponents unattached .defaults = .ok deck ∧
      "v(2)" ∈ Deck.vectors deck.nodeMap ∧
      ¬ ∀ k ∈ deck.nodeMap.indices, ∃ line ∈ deck.deviceLines, k ∈ line.nodes := by
  obtain ⟨deck, h, hlines, hmap⟩ := Deck.exists_of_run unattached .defaults
    ⟨⟨[("0", 0), ("a", 1), ("b", 2), ("c", 2)]⟩, [], []⟩ [⟨.resistor, "1", [1, 0], .value 1e3⟩]
    (by decide +kernel)
  have hindex : (2 : Int) ∈ deck.nodeMap.indices := by
    rw [hmap, NodeMap.mem_indices]
    exact ⟨by decide, "b", by decide⟩
  refine ⟨deck, h, List.mem_map.mpr ⟨2, hindex, rfl⟩, fun hall => ?_⟩
  obtain ⟨line, hline, hk⟩ := hall 2 hindex
  rw [hlines, List.mem_singleton] at hline
  subst hline
  revert hk
  decide

end Breadboard.Connectivity
