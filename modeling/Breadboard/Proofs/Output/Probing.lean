import Breadboard.Proofs.Netlist.Assembly
import Breadboard.Proofs.Netlist.Operations
import Breadboard.Proofs.Output.Labelling

/-!
# Probing

A net that is read off a labelled series by its name gives the vector of the node that the net was
numbered with. So instruments, which take no part in numbering, read what the deck wired.
-/

namespace Breadboard

/-! ## Labels over some nodes -/

namespace NetSeries

variable {m : NodeMap} {s : Series} {name : String} {v : List Float}

/-- Every node of the series is a node of the map. -/
def Covers (m : NodeMap) (s : Series) : Prop := ∀ k ∈ s.nodes, ∃ name, (name, k) ∈ m.entries

theorem mem_nodes {k : Int} : k ∈ s.nodes ↔ k ∈ Assoc.keys s.voltages := by
  unfold Series.nodes Assoc.keys
  rw [List.mem_mergeSort]

theorem mem_listedNodes {k : Int} : k ∈ listedNodes s ↔ k ∈ Assoc.keys s.voltages ∧ k ≠ 0 := by
  unfold listedNodes
  rw [List.mem_filter, mem_nodes, bne_iff_ne]

theorem mem_labelled (hc : Covers m s) :
    (name, v) ∈ labelled s m ↔ ∃ k ≠ 0, (name, k) ∈ m.entries ∧ s.voltages.lookup k = some v := by
  unfold labelled
  rw [List.mem_flatMap]
  constructor
  · rintro ⟨k, hk, hname⟩
    obtain ⟨hnode, hne⟩ := mem_listedNodes.mp hk
    have hindex : k ∈ m.indices := NodeMap.mem_indices.mpr ⟨hne, hc k (mem_nodes.mpr hnode)⟩
    rw [labels_of_mem hindex] at hname
    obtain ⟨n, hn, heq⟩ := List.mem_map.mp hname
    obtain ⟨rfl, rfl⟩ := Prod.mk.inj heq
    obtain ⟨w, hw⟩ := Option.ne_none_iff_exists'.mp
      (fun hnone => Assoc.lookup_eq_none_iff.mp hnone hnode)
    refine ⟨k, hne, NodeMap.mem_netsOf.mp hn, ?_⟩
    rw [hw]
    rfl
  · rintro ⟨k, hne, he, hv⟩
    have hnode : k ∈ Assoc.keys s.voltages := List.mem_map_of_mem (Assoc.mem_of_lookup hv)
    refine ⟨k, mem_listedNodes.mpr ⟨hnode, hne⟩, ?_⟩
    rw [labels_of_mem (NodeMap.mem_indices.mpr ⟨hne, name, he⟩), hv]
    exact List.mem_map.mpr ⟨name, NodeMap.mem_netsOf.mpr he, rfl⟩

theorem lookup_voltages (hc : Covers m s) (hd : (Assoc.keys m.entries).Nodup)
    (hname : m.get? name ≠ some 0) :
    (ofSeries s m).voltages.lookup name = (m.get? name).bind fun k => s.voltages.lookup k := by
  show (Assoc.ofList (labelled s m)).lookup name = _
  rw [Assoc.lookup_ofList]
  cases hvector : (m.get? name).bind fun k => s.voltages.lookup k with
  | some v =>
    obtain ⟨k, hk, hv⟩ := Option.bind_eq_some_iff.mp hvector
    have hne : k ≠ 0 := fun h0 => hname (h0 ▸ hk)
    refine Assoc.lookup_of_forall (List.mem_reverse.mpr ?_) fun w hw => ?_
    · exact (mem_labelled hc).mpr ⟨k, hne, Assoc.mem_of_lookup hk, hv⟩
    · obtain ⟨i, -, hi, hwi⟩ := (mem_labelled hc).mp (List.mem_reverse.mp hw)
      -- Another entry of the net is of the same node, for the map has each name once.
      obtain rfl := Option.some.inj (hk.symm.trans (Assoc.lookup_of_mem hd hi))
      exact Option.some.inj (hwi.symm.trans hv)
  | none =>
    refine Assoc.lookup_eq_none_iff.mpr fun hkey => ?_
    obtain ⟨⟨n, w⟩, hw, rfl⟩ := List.mem_map.mp hkey
    obtain ⟨i, -, hi, hwi⟩ := (mem_labelled hc).mp (List.mem_reverse.mp hw)
    have hget : m.get? n = some i := Assoc.lookup_of_mem hd hi
    rw [hget, Option.bind_some, hwi] at hvector
    cases hvector

/-- No node of the series is left without a net. -/
theorem unnamed_eq_nil (hc : Covers m s) : unnamed s m = [] := by
  unfold unnamed
  rw [List.map_eq_nil_iff, List.filter_eq_nil_iff]
  intro k hk
  obtain ⟨hnode, hne⟩ := mem_listedNodes.mp hk
  have hnets := NodeMap.netsOf_ne_nil (NodeMap.mem_indices.mpr ⟨hne, hc k (mem_nodes.mpr hnode)⟩)
  simpa using hnets

/-- What a net reads by the number that it has in the map: nothing if it is blank, zero throughout
if it is ground, and else the vector of its node. -/
def readByNode (m : NodeMap) (s : Series) (net : String) : Option (List Float) :=
  if Net.canonical net = "" then none
  else if Net.isGround net then some (List.replicate s.size 0.0)
  else (m.nodeOf net).bind fun k => s.voltages.lookup k

/-- A net reads the same by its name and by its number. -/
theorem get?_ofSeries {t : NodeTable} (ht : t.Numbered) (hc : Covers t.toNodeMap s) (net : String) :
    (ofSeries s t.toNodeMap).get? net = readByNode t.toNodeMap s net := by
  unfold get? readByNode
  by_cases hground : Net.canonical net = Net.ground
  · have hblank : Net.canonical net ≠ "" := by
      rw [hground]
      decide
    have htrue : Net.isGround net = true := beq_iff_eq.mpr hground
    rw [if_pos hground, if_neg hblank, if_pos htrue, List.map_const']
    rfl
  · have hfalse : ¬ Net.isGround net = true := fun h => hground (beq_iff_eq.mp h)
    have hzero : t.toNodeMap.get? (Net.canonical net) ≠ some 0 := fun h0 =>
      hground ((ht.eq_zero_iff (Assoc.mem_of_lookup h0)).mp rfl)
    simp only [if_neg hground, if_neg hfalse]
    rw [lookup_voltages hc ht.distinct hzero]
    split
    · next hblank =>
      have hkey : Net.canonical net ∉ Assoc.keys t.entries := by
        intro hkey
        obtain ⟨e, he, hname⟩ := List.mem_map.mp hkey
        exact (ht.canonical e he).2 (hname.trans hblank)
      have hnone : t.toNodeMap.get? (Net.canonical net) = none := by
        unfold NodeMap.get? NodeTable.toNodeMap
        exact Assoc.lookup_eq_none_iff.mpr hkey
      rw [hnone, Option.bind_none]
    · rfl

end NetSeries

/-! ## Instruments -/

namespace LabelNotice

/-- Whether a notice names a pin of an instrument. -/
def isAbout (designator label : String) : LabelNotice → Bool
  | .unnamedNode _ => false
  | .notSimulated d l _ => d == designator && l == label

end LabelNotice

namespace Probe

open NetSeries

variable {m : NodeMap} {s : Series} {l : NetSeries} {c : Component} {before after : List Component}

/-- The notice about a pin that is wired and reads nothing. -/
def unread (m : NodeMap) (s : Series) (designator : String) (p : String × Pin) : List LabelNotice :=
  if Net.canonical p.2.net ≠ "" ∧ readByNode m s p.2.net = none then
    [.notSimulated designator p.1 (Net.canonical p.2.net)]
  else []

/-- The text of such a notice names the instrument, the pin and the net. -/
theorem message_of_mem_unread {designator : String} {p : String × Pin} {notice : LabelNotice}
    (h : notice ∈ unread m s designator p) : notice.message =
      "Probe " ++ designator ++ " pin " ++ p.1 ++ ": net '" ++ Net.canonical p.2.net ++
        "' was not simulated" := by
  unfold unread at h
  split at h
  · rw [List.mem_singleton.mp h]
    rfl
  · cases h

theorem readPin_eq (hread : ∀ net, l.get? net = readByNode m s net) (p : Pin) :
    readPin l p = readByNode m s p.net := by
  unfold readPin
  split
  · next hblank =>
    rw [readByNode, if_pos (beq_iff_eq.mp hblank)]
  · exact hread p.net

/-- The reading of an instrument counts if no later one has its designator. -/
theorem lookup_readAll (hc : c.isInstrument)
    (hlast : ∀ d ∈ after, d.isInstrument → d.designator ≠ c.designator) :
    (readAll (before ++ c :: after) l).lookup c.designator = some (readings l c) := by
  have hnone : ((after.filter Component.isInstrument).map fun d =>
      (d.designator, readings l d)).reverse.lookup c.designator = none := by
    refine Assoc.lookup_eq_none_iff.mpr fun hkey => ?_
    obtain ⟨e, he, hname⟩ := List.mem_map.mp hkey
    obtain ⟨d, hd, rfl⟩ := List.mem_map.mp (List.mem_reverse.mp he)
    obtain ⟨hmem, hinstrument⟩ := List.mem_filter.mp hd
    exact hlast d hmem hinstrument hname
  unfold readAll
  rw [Assoc.lookup_ofList, List.filter_append, List.filter_cons_of_pos hc, List.map_append,
    List.map_cons, List.reverse_append, List.reverse_cons, List.append_assoc, List.lookup_append,
    hnone, Option.none_or, List.singleton_append, List.lookup_cons_self]

/-- Notices about a designator come from the instruments that have it. -/
theorem filter_isAbout_notices {components : List Component} {designator : String}
    (hnone : ∀ d ∈ components, d.isInstrument → d.designator ≠ designator) (label : String) :
    (notices components l).filter (LabelNotice.isAbout designator label) = [] := by
  unfold notices
  rw [List.filter_eq_nil_iff]
  intro n hn
  obtain ⟨d, hd, hmissing⟩ := List.mem_flatMap.mp hn
  obtain ⟨hmem, hinstrument⟩ := List.mem_filter.mp hd
  obtain ⟨p, -, rfl⟩ := List.mem_map.mp hmissing
  simp [LabelNotice.isAbout, hnone d hmem hinstrument]

/-- A pin with a label of its own has its notice and no other. -/
theorem filter_isAbout_missing (hread : ∀ net, l.get? net = readByNode m s net)
    (hd : (Assoc.keys c.pins).Nodup) {p : String × Pin} (hp : p ∈ c.pins) :
    (missing l c).filter (LabelNotice.isAbout c.designator p.1) = unread m s c.designator p := by
  have hpin : (c.pins.filter fun q => q.1 == p.1) = [p] := by
    obtain ⟨front, back, hsplit⟩ := List.append_of_mem hp
    rw [hsplit, Assoc.keys, List.map_append, List.map_cons] at hd
    obtain ⟨-, hback, hdisjoint⟩ := List.nodup_append.mp hd
    have hbefore : (front.filter fun q => q.1 == p.1) = [] := by
      rw [List.filter_eq_nil_iff]
      intro q hq heq
      exact hdisjoint q.1 (List.mem_map_of_mem hq) p.1 List.mem_cons_self (beq_iff_eq.mp heq)
    have hafter : (back.filter fun q => q.1 == p.1) = [] := by
      rw [List.filter_eq_nil_iff]
      intro q hq heq
      have hmem : p.1 ∈ back.map (·.1) := beq_iff_eq.mp heq ▸ List.mem_map_of_mem hq
      exact (List.nodup_cons.mp hback).1 hmem
    rw [hsplit, List.filter_append, hbefore, List.nil_append, List.filter_cons_of_pos (by simp),
      hafter]
  have habout : (LabelNotice.isAbout c.designator p.1 ∘ fun q : String × Pin =>
      LabelNotice.notSimulated c.designator q.1 (Net.canonical q.2.net)) = fun q => q.1 == p.1 := by
    funext q
    simp [LabelNotice.isAbout]
  unfold missing unread
  rw [List.filter_map, habout, List.filter_comm, hpin, List.filter_singleton, readPin_eq hread]
  simp only [cond_eq_ite, Bool.and_eq_true, bne_iff_ne, Option.isNone_iff_eq_none]
  split <;> rfl

/-- **Instruments read what the deck wired.** Off a series over nodes of the deck, every net reads
the vector of the node it was numbered with, and labelling has no notice. So does every pin of an
instrument whose designator no later instrument has. Such a pin has exactly one notice if it is
wired and reads nothing, besides those of earlier instruments with that designator, and the text of
the notice names the instrument, the pin and the net. -/
theorem reads_by_node {components : List Component} {settings : Settings} {deck : Deck}
    (hdeck : Deck.ofComponents components settings = .ok deck) (hcovers : Covers deck.nodeMap s) :
    (∀ net, (ofSeries s deck.nodeMap).get? net = readByNode deck.nodeMap s net) ∧
    unnamed s deck.nodeMap = [] ∧
    ∀ before c after, components = before ++ c :: after → c.isInstrument →
      (∀ d ∈ after, d.isInstrument → d.designator ≠ c.designator) → (Assoc.keys c.pins).Nodup →
      (readAll components (ofSeries s deck.nodeMap)).lookup c.designator =
        some (c.pins.map fun p => (p.1, readByNode deck.nodeMap s p.2.net)) ∧
      ∀ p ∈ c.pins, (notices components (ofSeries s deck.nodeMap)).filter
          (LabelNotice.isAbout c.designator p.1) =
        (notices before (ofSeries s deck.nodeMap)).filter (LabelNotice.isAbout c.designator p.1) ++
          unread deck.nodeMap s c.designator p ∧
        ∀ notice ∈ unread deck.nodeMap s c.designator p, notice.message =
          "Probe " ++ c.designator ++ " pin " ++ p.1 ++ ": net '" ++ Net.canonical p.2.net ++
            "' was not simulated" := by
  obtain ⟨t, ht, hmap⟩ := Deck.exists_numbered hdeck
  have hread : ∀ net, (ofSeries s deck.nodeMap).get? net = readByNode deck.nodeMap s net := by
    rw [hmap] at hcovers ⊢
    exact get?_ofSeries ht hcovers
  refine ⟨hread, unnamed_eq_nil hcovers, ?_⟩
  rintro before c after rfl hc hlast hd
  refine ⟨?_, fun p hp => ⟨?_, fun _ => message_of_mem_unread⟩⟩
  · rw [lookup_readAll hc hlast]
    unfold readings
    simp only [readPin_eq hread]
  · have hsplit : notices (before ++ c :: after) (ofSeries s deck.nodeMap) =
        notices before (ofSeries s deck.nodeMap) ++ (missing (ofSeries s deck.nodeMap) c ++
          notices after (ofSeries s deck.nodeMap)) := by
      unfold notices
      rw [List.filter_append, List.filter_cons_of_pos hc, List.flatMap_append, List.flatMap_cons]
    rw [hsplit, List.filter_append, List.filter_append, filter_isAbout_missing hread hd hp,
      filter_isAbout_notices hlast, List.append_nil]

/-- A probe on a joined net, on ground, on nothing, on a net that was not simulated and on one that
no device has. -/
def probe : Component :=
  .wired "P" .displayOnly
    [("tip", " b "), ("shield", "AGND"), ("spare", " "), ("far", "c"), ("lost", "x")]

/-- Two resistors, a junction and a probe. -/
def probed : List Component :=
  [.wired "1" (.device .resistor) [("1", "a"), ("2", "gnd")],
    .wired "J" .junction [("1", "a"), ("2", "b")],
    .wired "2" (.device .resistor) [("1", "c"), ("2", "0")], probe]

/-- A series over the node of the joined nets. -/
def oneNode : Series := ⟨[0.0, 1.0], [(1, [5.0, 6.0])], []⟩

theorem reads_by_node_probed :
    ∃ deck, Deck.ofComponents probed Settings.defaults = .ok deck ∧
      Covers deck.nodeMap oneNode ∧
      (readAll probed (ofSeries oneNode deck.nodeMap)).lookup "P" =
        some [("tip", some [5.0, 6.0]), ("shield", some [0.0, 0.0]), ("spare", none), ("far", none),
          ("lost", none)] ∧
      (notices probed (ofSeries oneNode deck.nodeMap)).filter (LabelNotice.isAbout "P" "far") =
        [.notSimulated "P" "far" "c"] ∧
      (LabelNotice.notSimulated "P" "far" "c").message =
        "Probe P pin far: net 'c' was not simulated" := by
  obtain ⟨deck, hdeck, -, hmap⟩ := Deck.exists_of_run probed Settings.defaults
    ⟨⟨[("0", 0), ("a", 1), ("b", 1), ("c", 2)]⟩, [], []⟩
    [⟨.resistor, "1", [1, 0], .value 1e3⟩, ⟨.resistor, "2", [2, 0], .value 1e3⟩]
    (by decide +kernel)
  have hcovers : Covers deck.nodeMap oneNode := by
    rw [hmap]
    intro k hk
    obtain rfl : k = 1 := List.mem_singleton.mp (mem_nodes.mp hk)
    exact ⟨"a", by decide⟩
  have hdesignator : probe.designator = "P" := rfl
  have hfar : ("far", ⟨"c", .null⟩) ∈ probe.pins :=
    List.mem_map.mpr ⟨("far", "c"), by decide, rfl⟩
  obtain ⟨hread, hnotices⟩ := (reads_by_node hdeck hcovers).2.2 (probed.take 3) probe [] rfl rfl
    (fun _ hd => nomatch hd) (by decide)
  rw [hdesignator] at hread hnotices
  obtain ⟨hnotice, htext⟩ := hnotices _ hfar
  have hunread : unread deck.nodeMap oneNode "P" ("far", ⟨"c", .null⟩) =
      [.notSimulated "P" "far" "c"] := by
    rw [hmap]
    decide +kernel
  rw [hunread] at htext
  refine ⟨deck, hdeck, hcovers, hread.trans ?_, hnotice.trans ?_, ?_⟩
  · rw [hmap]
    decide +kernel
  · rw [hmap]
    decide +kernel
  · rw [htext _ (List.mem_singleton.mpr rfl)]
    decide +kernel

end Probe

end Breadboard
