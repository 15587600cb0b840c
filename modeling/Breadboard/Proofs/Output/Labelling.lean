import Breadboard.Output.Labels
import Breadboard.Proofs.Netlist.Growth
import Mathlib.Data.List.Nodup

/-!
# Labelling by a well numbered map

A series over the nodes of a well numbered table is labelled without placeholders: every net but
ground is a label, no label stands for two nets, and each net has the vector of its node.
-/

namespace Breadboard

/-! ## The nodes of a map -/

namespace NodeMap

variable {m : NodeMap} {k : Int} {name : String}

theorem mem_indices : k ∈ m.indices ↔ k ≠ 0 ∧ ∃ name, (name, k) ∈ m.entries := by
  unfold indices
  rw [List.mem_mergeSort, List.mem_eraseDups, List.mem_filter, List.mem_map]
  constructor
  · rintro ⟨⟨⟨name, i⟩, he, rfl⟩, hne⟩
    exact ⟨by simpa using hne, name, he⟩
  · rintro ⟨hne, name, he⟩
    exact ⟨⟨(name, k), he, rfl⟩, by simpa using hne⟩

theorem nodup_indices : m.indices.Nodup :=
  (List.mergeSort_perm _ _).nodup_iff.mpr (nodup_eraseDups _)

theorem pairwise_indices : m.indices.Pairwise (· ≤ ·) := pairwise_mergeSort_key id _

theorem mergeSort_indices : m.indices.mergeSort (· ≤ ·) = m.indices :=
  List.mergeSort_of_pairwise (pairwise_indices.imp decide_eq_true)

theorem mem_netsOf : name ∈ m.netsOf k ↔ (name, k) ∈ m.entries := by
  unfold netsOf
  rw [List.mem_map]
  constructor
  · rintro ⟨⟨n, i⟩, he, rfl⟩
    obtain ⟨hmem, hi⟩ := List.mem_filter.mp he
    obtain rfl : i = k := by simpa using hi
    exact hmem
  · intro he
    exact ⟨(name, k), List.mem_filter.mpr ⟨he, by simp⟩, rfl⟩

theorem netsOf_ne_nil (h : k ∈ m.indices) : m.netsOf k ≠ [] := by
  obtain ⟨-, name, he⟩ := mem_indices.mp h
  exact List.ne_nil_of_mem (mem_netsOf.mpr he)

/-- No net belongs to two nodes of a map with distinct names. -/
theorem nodup_flatMap_netsOf (hd : (Assoc.keys m.entries).Nodup) :
    (m.indices.flatMap m.netsOf).Nodup := by
  refine List.nodup_flatMap.mpr ⟨fun k _ => ?_, ?_⟩
  · exact (List.filter_sublist.map _).nodup hd
  · refine m.nodup_indices.imp fun {i j} hij => ?_
    intro name hi hj
    have hli := Assoc.lookup_of_mem hd (mem_netsOf.mp hi)
    have hlj := Assoc.lookup_of_mem hd (mem_netsOf.mp hj)
    exact hij (Option.some.inj (hli.symm.trans hlj))

end NodeMap

/-! ## Labels -/

namespace NetSeries

variable {m : NodeMap} {time : List Float} {vector : Int → List Float}

/-- A series that has a vector for each node of a map. -/
def overNodes (m : NodeMap) (time : List Float) (vector : Int → List Float) : Series :=
  ⟨time, m.indices.map fun k => (k, vector k), []⟩

theorem listedNodes_overNodes : listedNodes (overNodes m time vector) = m.indices := by
  have hkeys : (m.indices.map fun k => (k, vector k)).map (·.1) = m.indices := by
    rw [List.map_map]
    exact List.map_id _
  unfold listedNodes Series.nodes overNodes
  rw [hkeys, m.mergeSort_indices, List.filter_eq_self]
  intro k hk
  simpa using (NodeMap.mem_indices.mp hk).1

theorem labels_of_mem {k : Int} (hk : k ∈ m.indices) : labels m k = m.netsOf k := by
  unfold labels
  cases hn : m.netsOf k with
  | nil => exact absurd hn (NodeMap.netsOf_ne_nil hk)
  | cons => rfl

theorem unnamed_overNodes : unnamed (overNodes m time vector) m = [] := by
  unfold unnamed
  rw [listedNodes_overNodes, List.map_eq_nil_iff, List.filter_eq_nil_iff]
  intro k hk
  simpa using NodeMap.netsOf_ne_nil hk

theorem labelled_overNodes :
    labelled (overNodes m time vector) m =
      m.indices.flatMap fun k => (m.netsOf k).map fun name => (name, vector k) := by
  unfold labelled
  rw [listedNodes_overNodes]
  refine List.flatMap_congr fun k hk => ?_
  have hvector : (m.indices.map fun k => (k, vector k)).lookup k = some (vector k) :=
    List.lookup_graph vector hk
  rw [labels_of_mem hk, overNodes, hvector]
  rfl

theorem keys_labelled :
    Assoc.keys (labelled (overNodes m time vector) m) = m.indices.flatMap m.netsOf := by
  rw [labelled_overNodes, Assoc.keys, List.map_flatMap]
  refine List.flatMap_congr fun k _ => ?_
  rw [List.map_map]
  exact List.map_id _

/-- With distinct names, the labels are all different and none replaces another. -/
theorem voltages_ofSeries (hd : (Assoc.keys m.entries).Nodup) :
    (ofSeries (overNodes m time vector) m).voltages = labelled (overNodes m time vector) m := by
  refine Assoc.ofList_of_nodup ?_
  rw [keys_labelled]
  exact NodeMap.nodup_flatMap_netsOf hd

theorem lookup_ofSeries (hd : (Assoc.keys m.entries).Nodup) {name : String} {k : Int} (hk : k ≠ 0)
    (he : (name, k) ∈ m.entries) :
    (ofSeries (overNodes m time vector) m).voltages.lookup name = some (vector k) := by
  have hindex : k ∈ m.indices := NodeMap.mem_indices.mpr ⟨hk, name, he⟩
  rw [voltages_ofSeries hd]
  refine Assoc.lookup_of_mem ?_ ?_
  · rw [keys_labelled]
    exact NodeMap.nodup_flatMap_netsOf hd
  · rw [labelled_overNodes, List.mem_flatMap]
    exact ⟨k, hindex, List.mem_map.mpr ⟨name, NodeMap.mem_netsOf.mpr he, rfl⟩⟩

theorem mem_keys_ofSeries (hd : (Assoc.keys m.entries).Nodup) {name : String} :
    name ∈ Assoc.keys (ofSeries (overNodes m time vector) m).voltages ↔
      ∃ k, k ≠ 0 ∧ (name, k) ∈ m.entries := by
  rw [voltages_ofSeries hd, keys_labelled, List.mem_flatMap]
  constructor
  · rintro ⟨k, hk, hname⟩
    exact ⟨k, (NodeMap.mem_indices.mp hk).1, NodeMap.mem_netsOf.mp hname⟩
  · rintro ⟨k, hk, he⟩
    exact ⟨k, NodeMap.mem_indices.mpr ⟨hk, name, he⟩, NodeMap.mem_netsOf.mpr he⟩

end NetSeries

end Breadboard
