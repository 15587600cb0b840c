import Breadboard.Proofs.Netlist.Connectivity
import Breadboard.Proofs.Netlist.TwoPass
import Breadboard.Proofs.Output.Labelling
import Mathlib.Data.List.Perm.Basic
import Mathlib.Data.Set.Function

/-!
# Components in another order

Nets are numbered in the order in which the components bring them. Bundles are added to a table in
any order with the same connections (`NodeTable.Grows.lookup_congr`), so another order of the
components renumbers the nodes and changes nothing else.
-/

namespace Breadboard

open Relation

/-! ## Tables grown from the same bundles -/

namespace NodeTable

variable {t u : NodeTable} {bundles others : List (List String)} {x y : String} {i : Int}

/-- The nodes in use. -/
def used (t : NodeTable) : Set Int := {k | ∃ name, t.entries.lookup name = some k}

theorem mem_used_iff (ht : t.Numbered) {k : Int} : k ∈ t.used ↔ k ∈ t.firstUses := by
  unfold firstUses
  rw [List.mem_eraseDups, List.mem_map]
  constructor
  · rintro ⟨name, hl⟩
    exact ⟨_, Assoc.mem_of_lookup hl, rfl⟩
  · rintro ⟨⟨name, k⟩, he, rfl⟩
    exact ⟨name, Assoc.lookup_of_mem ht.distinct he⟩

theorem Grows.lookup_eq_of_chain (h : t.Grows bundles u)
    (hxy : ReflTransGen (Together bundles) x y) : u.entries.lookup x = u.entries.lookup y := by
  induction hxy with
  | refl => rfl
  | tail _ hyz ih =>
    obtain ⟨b, hb, hy, hz⟩ := hyz
    obtain ⟨i, hi⟩ := h.together b hb
    rw [ih, hi _ hy, hi _ hz]

section SameBundles

variable (ht : start.Grows bundles t) (hu : start.Grows others u)
  (hb : ∀ b, b ∈ bundles ↔ b ∈ others)

include ht hu hb

theorem Grows.mem_keys_iff : x ∈ Assoc.keys t.entries ↔ x ∈ Assoc.keys u.entries := by
  rw [ht.mem_keys, hu.mem_keys]
  simp only [hb]

/-- Names that share a node in one table share one in the other. -/
theorem Grows.lookup_congr (hx : t.entries.lookup x = some i) (hy : t.entries.lookup y = some i) :
    u.entries.lookup x = u.entries.lookup y := by
  have hnumbered := ht.numbered numbered_start
  have hzero : ∀ {z : String}, t.entries.lookup z = some i → (i = 0 ↔ z = Net.ground) :=
    fun hz => hnumbered.eq_zero_iff (Assoc.mem_of_lookup hz)
  by_cases hi : i = 0
  · rw [(hzero hx).mp hi, (hzero hy).mp hi]
  · have hchain := ht.linked (mt (hzero hx).mpr hi) (mt (hzero hy).mpr hi) hx hy
    apply hu.lookup_eq_of_chain
    refine ReflTransGen.mono (fun a c hac => ?_) _ _ hchain
    obtain ⟨b, hmem, ha, hc⟩ := hac
    exact ⟨b, (hb b).mp hmem, ha, hc⟩

end SameBundles

/-- The node that the first net of a node has in another table. -/
def renumbering (t u : NodeTable) (k : Int) : Int :=
  match t.toNodeMap.netsOf k with
  | [] => k
  | name :: _ => (u.entries.lookup name).getD k

end NodeTable

/-- A change of nodes that turns one map into another: ground stays, the nodes in use correspond one
to one, and every net has the node that corresponds to its old one. -/
structure NodeMap.Renumbers (σ : Int → Int) (m m' : NodeMap) : Prop where
  ground : σ 0 = 0
  bijective : Set.BijOn σ {k | ∃ name, m.get? name = some k} {k | ∃ name, m'.get? name = some k}
  nodes : ∀ name, m'.get? name = (m.get? name).map σ

namespace NodeTable

variable {t u : NodeTable} {bundles others : List (List String)} {σ : Int → Int}

section SameBundles

variable (ht : start.Grows bundles t) (hu : start.Grows others u)
  (hb : ∀ b, b ∈ bundles ↔ b ∈ others)

include ht hu hb

theorem Grows.lookup_renumbering {x : String} {i : Int} (hx : t.entries.lookup x = some i) :
    u.entries.lookup x = some (t.renumbering u i) := by
  have hmem : x ∈ t.toNodeMap.netsOf i := NodeMap.mem_netsOf.mpr (Assoc.mem_of_lookup hx)
  have hkey : x ∈ Assoc.keys u.entries := by
    rw [← Grows.mem_keys_iff ht hu hb]
    exact List.mem_map_of_mem (Assoc.mem_of_lookup hx)
  unfold renumbering
  cases hnets : t.toNodeMap.netsOf i with
  | nil =>
    rw [hnets] at hmem
    cases hmem
  | cons first rest =>
    have hin : first ∈ t.toNodeMap.netsOf i := by
      rw [hnets]
      exact List.mem_cons_self
    have hfirst : t.entries.lookup first = some i :=
      Assoc.lookup_of_mem (ht.numbered numbered_start).distinct (NodeMap.mem_netsOf.mp hin)
    have hsame := Grows.lookup_congr ht hu hb hx hfirst
    cases hl : u.entries.lookup x with
    | none => exact absurd hkey (Assoc.lookup_eq_none_iff.mp hl)
    | some j =>
      simp only [← hsame, hl, Option.getD_some]

/-- Tables grown from the same bundles, in whatever order, differ by a change of nodes. -/
theorem Grows.renumbers : NodeMap.Renumbers (t.renumbering u) t.toNodeMap u.toNodeMap := by
  have hground := (ht.numbered numbered_start).lookup_ground
  have hlookup : ∀ name, u.entries.lookup name = (t.entries.lookup name).map (t.renumbering u) := by
    intro name
    cases hl : t.entries.lookup name with
    | some i => exact Grows.lookup_renumbering ht hu hb hl
    | none =>
      rw [Assoc.lookup_eq_none_iff, Grows.mem_keys_iff ht hu hb] at hl
      exact Assoc.lookup_eq_none_iff.mpr hl
  refine ⟨?_, ⟨?_, ?_, ?_⟩, hlookup⟩
  · have hzero := Grows.lookup_renumbering ht hu hb hground
    rw [(hu.numbered numbered_start).lookup_ground] at hzero
    exact (Option.some.inj hzero).symm
  · rintro k ⟨name, hk⟩
    exact ⟨name, Grows.lookup_renumbering ht hu hb hk⟩
  · rintro i ⟨x, hx⟩ j ⟨y, hy⟩ hij
    have hux := Grows.lookup_renumbering ht hu hb hx
    have huy := Grows.lookup_renumbering ht hu hb hy
    rw [hij] at hux
    have hback := Grows.lookup_congr hu ht (fun b => (hb b).symm) hux huy
    exact Option.some.inj (hx.symm.trans (hback.trans hy))
  · rintro j ⟨name, hj⟩
    have hmap : (t.entries.lookup name).map (t.renumbering u) = some j :=
      (hlookup name).symm.trans hj
    obtain ⟨i, hi, rfl⟩ := Option.map_eq_some_iff.mp hmap
    exact ⟨i, ⟨name, hi⟩, rfl⟩

end SameBundles

theorem firstUses_eq_of_renumbers (ht : t.Numbered) (hu : u.Numbered)
    (h : NodeMap.Renumbers σ t.toNodeMap u.toNodeMap) : t.firstUses = u.firstUses := by
  obtain ⟨hmaps, hinj, hsurj⟩ := h.bijective
  have hdistinct : ∀ v : NodeTable, v.firstUses.Nodup := fun _ => nodup_eraseDups _
  have himage : (t.firstUses.map σ).Nodup := by
    refine (hdistinct t).map_on fun i hi j hj hij => ?_
    exact hinj ((mem_used_iff ht).mpr hi) ((mem_used_iff ht).mpr hj) hij
  have hperm : (t.firstUses.map σ).Perm u.firstUses := by
    rw [List.perm_ext_iff_of_nodup himage (hdistinct u)]
    intro j
    rw [List.mem_map, ← mem_used_iff hu]
    constructor
    · rintro ⟨i, hi, rfl⟩
      exact hmaps ((mem_used_iff ht).mpr hi)
    · intro hj
      obtain ⟨i, hi, hij⟩ := hsurj hj
      exact ⟨i, (mem_used_iff ht).mp hi, hij⟩
  obtain ⟨n, hn⟩ := ht.in_order
  obtain ⟨n', hn'⟩ := hu.in_order
  have hlength := hperm.length_eq
  rw [hn, hn'] at hlength
  simp only [List.length_map, List.length_range] at hlength
  rw [hn, hn', hlength]

theorem mem_indices_iff {k : Int} : k ∈ t.toNodeMap.indices ↔ k ≠ 0 ∧ k ∈ t.firstUses := by
  rw [NodeMap.mem_indices, firstUses, List.mem_eraseDups, List.mem_map]
  refine and_congr_right fun _ => ⟨?_, ?_⟩
  · rintro ⟨name, he⟩
    exact ⟨_, he, rfl⟩
  · rintro ⟨⟨name, k⟩, he, rfl⟩
    exact ⟨name, he⟩

theorem indices_eq_of_firstUses (h : t.firstUses = u.firstUses) :
    t.toNodeMap.indices = u.toNodeMap.indices := by
  have hperm : t.toNodeMap.indices.Perm u.toNodeMap.indices := by
    rw [List.perm_ext_iff_of_nodup t.toNodeMap.nodup_indices u.toNodeMap.nodup_indices]
    intro k
    rw [mem_indices_iff, mem_indices_iff, h]
  refine hperm.eq_of_pairwise (fun a b _ _ hab hba => ?_) t.toNodeMap.pairwise_indices
    u.toNodeMap.pairwise_indices
  omega

end NodeTable

/-! ## Lines -/

/-- A line with its nodes changed. -/
def DeviceLine.renumber (σ : Int → Int) (l : DeviceLine) : DeviceLine :=
  { l with nodes := l.nodes.map σ }

namespace TwoPass

variable {σ : Int → Int} {m m' : NodeMap}

theorem lineAt_renumbers (h : NodeMap.Renumbers σ m m') (p : Device × Component) :
    lineAt m' p = (lineAt m p).map (DeviceLine.renumber σ) := by
  have hnodes : m'.nodeOf = fun net => (m.nodeOf net).map σ := by
    funext net
    exact h.nodes (Net.canonical net)
  unfold lineAt
  rw [hnodes, mapM_map_option, Option.map_map, Option.map_map]
  rfl

/-- The line that a component gets is the one that the table behind it gives. -/
theorem mapM_lineAt_of_placed {a b : Assembly} {c : Component} {line : Option DeviceLine}
    (hn : a.nodes.Numbered) (hp : Assembly.Placed a c b line) :
    (placed [c]).mapM (lineAt b.nodes.toNodeMap) = some line.toList := by
  cases hp with
  | instrument hk => simp [placed, hk]
  | junction hk hm => simp [placed, hk]
  | unsupported hk => simp [placed, hk]
  | unwired hk hu => simp [placed, hk, (Component.isPlaced_device hk).not.mpr hu]
  | @device d nodes indices hk hu he =>
    have hplaced : placed [c] = [(d, c)] := by
      simp [placed, hk, (Component.isPlaced_device hk).mpr hu]
    rw [hplaced, List.mapM_cons, Assembly.use_nodes, lineAt_enterAll hn hu he]
    rfl

/-- The lines of a run are those that a second pass writes from the finished table. -/
theorem mapM_lineAt_of_run {components : List Component} {a : Assembly} {lines : List DeviceLine}
    (h : Assembly.start.run components = .ok (a, lines)) :
    (placed components).mapM (lineAt a.nodes.toNodeMap) = some lines := by
  have hstart : Assembly.start.nodes.Numbered ∧
      (placed []).mapM (lineAt Assembly.start.nodes.toNodeMap) = some [] :=
    ⟨NodeTable.numbered_start, rfl⟩
  have hend := Assembly.run_induction (P := fun done a lines => a.nodes.Numbered ∧
    (placed done).mapM (lineAt a.nodes.toNodeMap) = some lines) ?_ [] [] hstart h
  · exact hend.2
  · rintro done a lines c b line ⟨hn, hl⟩ hp
    have hg := hp.grows
    have hdone := mapM_some_mono (fun _ _ => lineAt_grows hg) hl
    have hnext := mapM_lineAt_of_placed hn hp
    refine ⟨hg.numbered hn, ?_⟩
    unfold placed at hdone hnext ⊢
    rw [List.filterMap_append, List.mapM_append, hdone, hnext]
    rfl

/-- Lines of components in another order, from a renumbered map, are the renumbered lines in another
order. -/
theorem lines_perm {components others : List Component} {lines lines' : List DeviceLine}
    (hp : components.Perm others) (h : NodeMap.Renumbers σ m m')
    (hl : (placed components).mapM (lineAt m) = some lines)
    (hl' : (placed others).mapM (lineAt m') = some lines') :
    lines'.Perm (lines.map (DeviceLine.renumber σ)) := by
  rw [mapM_eq_some_iff] at hl hl'
  have hrenumbered : (placed components).map (lineAt m') =
      (lines.map (DeviceLine.renumber σ)).map some := by
    calc (placed components).map (lineAt m')
        = ((placed components).map (lineAt m)).map (Option.map (DeviceLine.renumber σ)) := by
          rw [List.map_map]
          exact List.map_congr_left fun p _ => lineAt_renumbers h p
      _ = (lines.map (DeviceLine.renumber σ)).map some := by
          rw [hl, List.map_map, List.map_map]
          rfl
  have hsome : ((placed others).map (lineAt m')).Perm ((placed components).map (lineAt m')) :=
    ((hp.filterMap _).map _).symm
  rw [hl', hrenumbered] at hsome
  exact (List.map_perm_map_iff (Option.some_injective _)).mp hsome

theorem modelTexts_perm {lines lines' : List DeviceLine}
    (h : lines'.Perm (lines.map (DeviceLine.renumber σ))) :
    (modelTexts lines).Perm (modelTexts lines') := by
  have hmodels : (lines.filterMap DeviceLine.model?).Perm (lines'.filterMap DeviceLine.model?) := by
    have hperm := h.filterMap DeviceLine.model?
    rw [List.filterMap_map] at hperm
    exact hperm.symm
  exact ((perm_eraseDups hmodels).filter _).map _

end TwoPass

/-! ## Decks -/

namespace Deck

/-- What a change of nodes leaves of a deck: its nets, the vectors to print and the control block
that prints them, the lines but for their nodes and order, and the notices but for their order. -/
structure Renumbers (σ : Int → Int) (deck deck' : Deck) : Prop where
  nets : ∀ name, name ∈ Assoc.keys deck.nodeMap.entries ↔ name ∈ Assoc.keys deck'.nodeMap.entries
  nodes : NodeMap.Renumbers σ deck.nodeMap deck'.nodeMap
  vectors : vectors deck'.nodeMap = vectors deck.nodeMap
  control : ∀ s, controlBlock s deck'.nodeMap = controlBlock s deck.nodeMap
  lines : deck'.deviceLines.Perm (deck.deviceLines.map (DeviceLine.renumber σ))
  notices : deck.diagnostics.Perm deck'.diagnostics

variable {components others : List Component} {s : Settings} {deck deck' : Deck}

/-- **Another order only renumbers.** When the components of a deck are taken in another order, and
that gives a deck too, a change of nodes turns the one deck into the other: the nodes correspond one
to one, ground stays, and but for its nodes each line is as it was. -/
theorem renumbers_of_perm (hp : components.Perm others) (h : ofComponents components s = .ok deck)
    (h' : ofComponents others s = .ok deck') : ∃ σ, Renumbers σ deck deck' := by
  obtain ⟨a, hrun, hmap, -⟩ := exists_run h
  obtain ⟨a', hrun', hmap', -⟩ := exists_run h'
  have hg := Assembly.run_grows hrun
  have hg' := Assembly.run_grows hrun'
  have hb : ∀ b, b ∈ components.flatMap Component.bundles ↔ b ∈ others.flatMap Component.bundles :=
    fun b => (hp.flatMap_right _).mem_iff
  have hrenumbers := NodeTable.Grows.renumbers hg hg' hb
  have hvectors : vectors deck'.nodeMap = vectors deck.nodeMap := by
    have huses := NodeTable.firstUses_eq_of_renumbers (hg.numbered NodeTable.numbered_start)
      (hg'.numbered NodeTable.numbered_start) hrenumbers
    unfold vectors
    rw [hmap, hmap', NodeTable.indices_eq_of_firstUses huses]
  have hlines := TwoPass.lines_perm hp hrenumbers (TwoPass.mapM_lineAt_of_run hrun)
    (TwoPass.mapM_lineAt_of_run hrun')
  refine ⟨a.nodes.renumbering a'.nodes, ?_, ?_, hvectors, ?_, hlines, ?_⟩
  · intro name
    rw [hmap, hmap']
    exact NodeTable.Grows.mem_keys_iff hg hg' hb
  · rw [hmap, hmap']
    exact hrenumbers
  · intro s
    unfold controlBlock
    rw [hvectors]
  · rw [TwoPass.diagnostics_eq h, TwoPass.diagnostics_eq h']
    exact ((hp.filter _).map _).append (TwoPass.modelTexts_perm hlines)

/-- A junction that joins a net to one that has a node, two devices, and two that are left out. -/
def bridged : List Component :=
  [.wired "1" (.device .resistor) [("1", "a"), ("2", "gnd")],
    .wired "J" .junction [("1", " a "), ("2", "b"), ("3", "GND")],
    .wired "2" (.device .resistor) [("1", "c"), ("2", "b")], .wired "X" .unsupported [],
    .wired "3" (.device .resistor) [("1", "d"), ("2", " ")]]

/-- The same behind the other device, and in front of the first. -/
def shuffled : List Component :=
  [.wired "2" (.device .resistor) [("1", "c"), ("2", "b")],
    .wired "3" (.device .resistor) [("1", "d"), ("2", " ")],
    .wired "J" .junction [("1", " a "), ("2", "b"), ("3", "GND")], .wired "X" .unsupported [],
    .wired "1" (.device .resistor) [("1", "a"), ("2", "gnd")]]

theorem renumbers_of_perm_bridged :
    ∃ deck deck', bridged.Perm shuffled ∧ ofComponents bridged .defaults = .ok deck ∧
      ofComponents shuffled .defaults = .ok deck' ∧
      deck.deviceLines.map DeviceLine.nodes = [[1, 0], [2, 1]] ∧
      deck'.deviceLines.map DeviceLine.nodes = [[1, 2], [2, 0]] ∧
      ∃ σ, Renumbers σ deck deck' := by
  have hperm : bridged.Perm shuffled := by decide
  obtain ⟨deck, h, hlines, -⟩ := exists_of_run bridged .defaults
    ⟨⟨[("0", 0), ("a", 1), ("b", 1), ("c", 2)]⟩,
      [.unsupported "X" "", .unwired "3" ["2"]], []⟩
    [⟨.resistor, "1", [1, 0], .value 1e3⟩, ⟨.resistor, "2", [2, 1], .value 1e3⟩]
    (by decide +kernel)
  obtain ⟨deck', h', hlines', -⟩ := exists_of_run shuffled .defaults
    ⟨⟨[("0", 0), ("c", 1), ("b", 2), ("a", 2)]⟩,
      [.unwired "3" ["2"], .unsupported "X" ""], []⟩
    [⟨.resistor, "2", [1, 2], .value 1e3⟩, ⟨.resistor, "1", [2, 0], .value 1e3⟩]
    (by decide +kernel)
  exact ⟨deck, deck', hperm, h, h', by rw [hlines]; rfl, by rw [hlines']; rfl,
    renumbers_of_perm hperm h h'⟩

end Deck

end Breadboard
