import Breadboard.Proofs.Output.Probing
import Mathlib.Data.List.Nodup

/-!
# Placeholders

A node without a net is labelled with a made-up name, and nothing keeps a net of another node from
having that name. Labelling gives every label the vector that belongs to it exactly if no two nodes
with different vectors meet in a label in this way.
-/

namespace Breadboard

namespace NetSeries

variable {m : NodeMap} {s : Series} {l : NetSeries} {name : String} {j k : Int} {v w : List Float}

/-! ## What belongs under a label -/

theorem toDigits_injective : Function.Injective (Nat.toDigits 10) := by
  intro m n h
  rw [← Nat.ofDigitChars_ten_toDigits (n := m), h, Nat.ofDigitChars_ten_toDigits]

theorem head?_toDigits_ne_minus (n : Nat) : (Nat.toDigits 10 n).head? ≠ some '-' :=
  fun h => absurd (Nat.isDigit_of_mem_toDigits (by decide) (by decide) (List.mem_of_head? h))
    (by decide)

theorem toList_repr (k : Int) : k.repr.toList =
    if 0 ≤ k then Nat.toDigits 10 k.natAbs else '-' :: Nat.toDigits 10 k.natAbs := by
  cases k with
  | ofNat n => exact Nat.toList_repr
  | negSucc n =>
    show ("-" ++ Nat.repr (n + 1)).toList = '-' :: Nat.toDigits 10 (n + 1)
    rw [String.toList_append, Nat.toList_repr]
    rfl

theorem placeholder_injective : Function.Injective placeholder := by
  intro i j h
  have htext : "node_" ++ i.repr = "node_" ++ j.repr := h
  have hlist := congrArg String.toList ((String.append_right_inj _).mp htext)
  rw [toList_repr, toList_repr] at hlist
  split at hlist <;> split at hlist
  · have := toDigits_injective hlist
    omega
  · exact absurd (congrArg List.head? hlist) (head?_toDigits_ne_minus _)
  · exact absurd (congrArg List.head? hlist.symm) (head?_toDigits_ne_minus _)
  · have := toDigits_injective (List.cons.inj hlist).2
    omega

/-- A node of the series that is not ground and that no net of the map has. -/
structure Unnamed (m : NodeMap) (s : Series) (k : Int) : Prop where
  ne_zero : k ≠ 0
  listed : k ∈ Assoc.keys s.voltages
  no_net : ∀ name, (name, k) ∉ m.entries

/-- The vectors that belong under a label: that of a net's own node, and that of the node that the
label was made up for. -/
inductive Belongs (m : NodeMap) (s : Series) : String → List Float → Prop
  | net {name : String} {k : Int} {v : List Float} (hk : k ≠ 0) (hname : (name, k) ∈ m.entries)
      (hv : (k, v) ∈ s.voltages) : Belongs m s name v
  | placeholder {k : Int} {v : List Float} (hk : Unnamed m s k) (hv : (k, v) ∈ s.voltages) :
      Belongs m s (placeholder k) v

/-- Labels once each, each with a vector that belongs under it, time and currents as they were. -/
structure Lists (m : NodeMap) (s : Series) (l : NetSeries) : Prop where
  time : l.time = s.time
  currents : l.currents = s.currents
  distinct : (Assoc.keys l.voltages).Nodup
  belongs : ∀ {name v}, (name, v) ∈ l.voltages → Belongs m s name v
  complete : ∀ {name v}, Belongs m s name v → name ∈ Assoc.keys l.voltages

/-- No vector is lost, and every net has that of its own node. -/
structure Faithful (m : NodeMap) (s : Series) (l : NetSeries) : Prop extends Lists m s l where
  holds : ∀ {name v}, Belongs m s name v → (name, v) ∈ l.voltages
  own : ∀ {name k v}, (name, k) ∈ m.entries → (name, v) ∈ l.voltages → (k, v) ∈ s.voltages

/-- One notice for each node without a net, and no other. -/
structure Reports (m : NodeMap) (s : Series) (notices : List LabelNotice) : Prop where
  once : notices.Nodup
  mem_iff : ∀ n, n ∈ notices ↔ ∃ k, Unnamed m s k ∧ n = .unnamedNode k

/-! ## Labels of a node -/

theorem netsOf_eq_nil_iff : m.netsOf k = [] ↔ ∀ name, (name, k) ∉ m.entries := by
  rw [List.eq_nil_iff_forall_not_mem]
  exact forall_congr' fun _ => not_congr NodeMap.mem_netsOf

theorem mem_labels (hk : k ∈ Assoc.keys s.voltages) (hne : k ≠ 0) :
    name ∈ labels m k ↔ (name, k) ∈ m.entries ∨ Unnamed m s k ∧ name = placeholder k := by
  unfold labels
  cases hnets : m.netsOf k with
  | nil =>
    have hnone := netsOf_eq_nil_iff.mp hnets
    constructor
    · intro hmem
      exact .inr ⟨⟨hne, hk, hnone⟩, List.mem_singleton.mp hmem⟩
    · rintro (hmem | ⟨-, rfl⟩)
      · exact absurd hmem (hnone name)
      · exact List.mem_singleton_self _
  | cons first rest =>
    have hfirst : (first, k) ∈ m.entries :=
      NodeMap.mem_netsOf.mp (hnets ▸ List.mem_cons_self)
    show name ∈ first :: rest ↔ _
    rw [← hnets, NodeMap.mem_netsOf]
    constructor
    · exact .inl
    · rintro (hmem | ⟨hunnamed, -⟩)
      · exact hmem
      · exact absurd hfirst (hunnamed.no_net first)

theorem belongs_iff (hs : (Assoc.keys s.voltages).Nodup) :
    Belongs m s name v ↔ (name, v) ∈ labelled s m := by
  have hvector {k : Int} : (k, v) ∈ s.voltages →
      k ∈ Assoc.keys s.voltages ∧ (s.voltages.lookup k).getD [] = v := by
    intro hv
    rw [Assoc.lookup_of_mem hs hv]
    exact ⟨List.mem_map_of_mem hv, rfl⟩
  unfold labelled
  rw [List.mem_flatMap]
  constructor
  · rintro (⟨hne, hname, hv⟩ | ⟨hunnamed, hv⟩)
    · obtain ⟨hkey, rfl⟩ := hvector hv
      exact ⟨_, mem_listedNodes.mpr ⟨hkey, hne⟩, List.mem_map.mpr
        ⟨_, (mem_labels hkey hne).mpr (.inl hname), rfl⟩⟩
    · obtain ⟨hkey, rfl⟩ := hvector hv
      exact ⟨_, mem_listedNodes.mpr ⟨hkey, hunnamed.ne_zero⟩, List.mem_map.mpr
        ⟨_, (mem_labels hkey hunnamed.ne_zero).mpr (.inr ⟨hunnamed, rfl⟩), rfl⟩⟩
  · rintro ⟨k, hk, hmem⟩
    obtain ⟨hkey, hne⟩ := mem_listedNodes.mp hk
    obtain ⟨label, hlabel, heq⟩ := List.mem_map.mp hmem
    obtain ⟨rfl, rfl⟩ := Prod.mk.inj heq
    obtain ⟨w, hw⟩ := Option.ne_none_iff_exists'.mp
      (fun hnone => Assoc.lookup_eq_none_iff.mp hnone hkey)
    rw [hw]
    rcases (mem_labels hkey hne).mp hlabel with hname | ⟨hunnamed, rfl⟩
    · exact .net hne hname (Assoc.mem_of_lookup hw)
    · exact .placeholder hunnamed (Assoc.mem_of_lookup hw)

/-! ## Labelling -/

theorem lists_ofSeries (hs : (Assoc.keys s.voltages).Nodup) : Lists m s (ofSeries s m) where
  time := rfl
  currents := rfl
  distinct := Assoc.nodup_keys_ofList _
  belongs hmem := by
    have hlabelled := (Assoc.mem_foldl_put hmem).resolve_left List.not_mem_nil
    exact (belongs_iff hs).mpr hlabelled
  complete hmem := Assoc.mem_keys_ofList.mpr (List.mem_map_of_mem ((belongs_iff hs).mp hmem))

theorem reports_unnamed (hs : (Assoc.keys s.voltages).Nodup) : Reports m s (unnamed s m) where
  once := by
    have hlisted : (listedNodes s).Nodup :=
      ((List.mergeSort_perm _ _).nodup_iff.mpr hs).filter _
    exact (hlisted.filter _).map fun _ _ => LabelNotice.unnamedNode.inj
  mem_iff n := by
    unfold unnamed
    simp only [List.mem_map, List.mem_filter, mem_listedNodes, List.isEmpty_iff,
      netsOf_eq_nil_iff]
    constructor
    · rintro ⟨k, ⟨⟨hkey, hne⟩, hnone⟩, rfl⟩
      exact ⟨k, ⟨hne, hkey, hnone⟩, rfl⟩
    · rintro ⟨k, hk, rfl⟩
      exact ⟨k, ⟨⟨hk.listed, hk.ne_zero⟩, hk.no_net⟩, rfl⟩

/-- Every net that is named like the placeholder of a node has a node with the same vector. -/
def Unmixed (m : NodeMap) (s : Series) : Prop :=
  ∀ j k, (placeholder k, j) ∈ m.entries → Unnamed m s k →
    s.voltages.lookup j = s.voltages.lookup k

theorem Unmixed.vector_eq (h : Unmixed m s) (hs : (Assoc.keys s.voltages).Nodup)
    (hj : (placeholder k, j) ∈ m.entries) (hk : Unnamed m s k) (hv : (k, v) ∈ s.voltages) :
    (j, v) ∈ s.voltages :=
  Assoc.mem_of_lookup ((h j k hj hk).trans (Assoc.lookup_of_mem hs hv))

theorem Unmixed.own (h : Unmixed m s) (hs : (Assoc.keys s.voltages).Nodup)
    (hm : (Assoc.keys m.entries).Nodup) (hname : (name, j) ∈ m.entries)
    (hv : Belongs m s name v) : (j, v) ∈ s.voltages := by
  cases hv with
  | @net _ k _ hne hk hv =>
    obtain rfl : j = k :=
      Option.some.inj ((Assoc.lookup_of_mem hm hname).symm.trans (Assoc.lookup_of_mem hm hk))
    exact hv
  | placeholder hk hv => exact h.vector_eq hs hname hk hv

/-- At most one vector belongs under a label. -/
theorem Unmixed.unique (h : Unmixed m s) (hs : (Assoc.keys s.voltages).Nodup)
    (hm : (Assoc.keys m.entries).Nodup) (hv : Belongs m s name v) (hw : Belongs m s name w) :
    v = w := by
  have hvector {k : Int} (hv : (k, v) ∈ s.voltages) (hw : (k, w) ∈ s.voltages) : v = w :=
    Option.some.inj ((Assoc.lookup_of_mem hs hv).symm.trans (Assoc.lookup_of_mem hs hw))
  cases hv with
  | net _ hname hv => exact hvector hv (h.own hs hm hname hw)
  | placeholder hk hv =>
    generalize hlabel : placeholder _ = label at hw
    cases hw with
    | net _ hname hw => exact hvector (h.own hs hm hname (hlabel ▸ .placeholder hk hv)) hw
    | placeholder _ hw =>
      obtain rfl := placeholder_injective hlabel
      exact hvector hv hw

theorem Unmixed.faithful (h : Unmixed m s) (hs : (Assoc.keys s.voltages).Nodup)
    (hm : (Assoc.keys m.entries).Nodup) : Faithful m s (ofSeries s m) where
  toLists := lists_ofSeries hs
  holds {name v} hv := by
    obtain ⟨⟨label, w⟩, hw, rfl⟩ := List.mem_map.mp ((lists_ofSeries hs).complete hv)
    rwa [h.unique hs hm hv ((lists_ofSeries hs).belongs hw)]
  own hname hv := h.own hs hm hname ((lists_ofSeries hs).belongs hv)

theorem Faithful.unmixed (h : Faithful m s l) (hs : (Assoc.keys s.voltages).Nodup) :
    Unmixed m s := by
  intro j k hj hk
  obtain ⟨⟨i, v⟩, hv, rfl⟩ := List.mem_map.mp hk.listed
  rw [Assoc.lookup_of_mem hs hv, Assoc.lookup_of_mem hs (h.own hj (h.holds (.placeholder hk hv)))]

/-- **Labelling and made-up names.** Over a series and a map with distinct keys, labelling lists
each label once with a vector that belongs under it, and has one notice for each node without a
net. It is faithful, so no vector is lost and each net has that of its own node, exactly if every
net that is named like the placeholder of a node without a net has a node with the same vector. -/
theorem faithful_ofSeries_iff (hs : (Assoc.keys s.voltages).Nodup)
    (hm : (Assoc.keys m.entries).Nodup) :
    Lists m s (ofSeries s m) ∧ Reports m s (unnamed s m) ∧
      (Faithful m s (ofSeries s m) ↔ Unmixed m s) :=
  ⟨lists_ofSeries hs, reports_unnamed hs, fun h => h.unmixed hs, fun h => h.faithful hs hm⟩

/-- A map in which two nets share a node and one is named like a placeholder. -/
def aliased : NodeMap := ⟨[("a", 1), ("b", 1), ("node_2", 3), ("0", 0)]⟩

/-- Vectors of ground, of the node of two nets, and of a node without a net and one that a net with
its placeholder has, which are the same. -/
def loose : Series := ⟨[0.0], [(0, [0.0]), (1, [5.0]), (2, [7.0]), (3, [7.0])], [("i", [1.0])]⟩

theorem faithful_aliased : Faithful aliased loose (ofSeries loose aliased) := by
  refine (faithful_ofSeries_iff (by decide) (by decide)).2.2.mpr fun j k hj hk => ?_
  have hshared : ∀ k ∈ Assoc.keys loose.voltages, ∀ e ∈ aliased.entries, e.1 = placeholder k →
      loose.voltages.lookup e.2 = loose.voltages.lookup k := by
    decide +kernel
  exact hshared k hk.listed (placeholder k, j) hj rfl

/-- A net named like the placeholder of another node. -/
def misnamed : NodeMap := ⟨[("node_5", 1), ("0", 0)]⟩

/-- Vectors of the node of that net, and of the node whose placeholder it is named like. -/
def rivals : Series := ⟨[0.0], [(1, [1.0]), (5, [5.0])], []⟩

/-- The vector of the net is lost. -/
theorem not_faithful_misnamed :
    (ofSeries rivals misnamed).voltages = [("node_5", [5.0])] ∧
      ¬ Faithful misnamed rivals (ofSeries rivals misnamed) := by
  constructor
  · have hnodes : rivals.nodes = [1, 5] := List.mergeSort_of_pairwise (by decide)
    unfold ofSeries labelled listedNodes
    rw [hnodes]
    decide +kernel
  · intro h
    have hunnamed : Unnamed misnamed rivals 5 :=
      ⟨by decide, by decide, by simp [misnamed]⟩
    have hsame : rivals.voltages.lookup 1 = rivals.voltages.lookup 5 :=
      h.unmixed (by decide) 1 5 (by decide) hunnamed
    exact absurd hsame (by decide +kernel)

end NetSeries

end Breadboard
