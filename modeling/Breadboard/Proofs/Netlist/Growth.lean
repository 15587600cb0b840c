import Breadboard.Netlist.Assembly
import Breadboard.Proofs.Lists
import Mathlib.Data.List.DropRight

/-!
# How node tables grow

Every operation on a node table adds bundles of nets to it. The nets of a bundle share one node: the
one that some of them already have, or the next free one.

`Grows t bundles u` says that `u` comes from `t` by adding the bundles in turn. What one bundle
keeps is kept by every operation and every run: entries are only appended (`Grows.entries_prefix`),
and nodes are numbered in the order in which their nets were entered (`Grows.numbered`).
-/

namespace Breadboard

open Text

/-! ## Names of nets -/

theorem Text.trim_trim (cs : List Char) : trim (trim cs) = trim cs := by
  have hp : trim cs <+: cs.dropWhile isBlank := List.rdropWhile_prefix isBlank _
  have hstart : trimStart (trim cs) = trim cs := by
    unfold trimStart
    refine List.dropWhile_eq_self_iff.mpr fun hl => ?_
    have hne : cs.dropWhile isBlank ≠ [] := by
      intro h
      rw [h, List.prefix_nil] at hp
      exact absurd hp (List.length_pos_iff.mp hl)
    have hhead : (trim cs)[0] = (cs.dropWhile isBlank).head hne := by
      rw [hp.getElem hl, List.head_eq_getElem]
    show ¬ isBlank (trim cs)[0] = true
    rw [hhead, List.head_dropWhile_not isBlank hne]
    exact Bool.false_ne_true
  calc trim (trim cs) = trimEnd (trim cs) := by rw [trim, hstart]
    _ = trim cs := List.rdropWhile_idempotent isBlank _

theorem Net.canonical_canonical (net : String) :
    Net.canonical (Net.canonical net) = Net.canonical net := by
  by_cases h : groundSpellings.contains (String.ofList (upperAscii (trim net.toList))) = true
  · rw [show Net.canonical net = Net.ground by simp only [Net.canonical, h, if_true]]
    exact Net.canonical_ground
  · have hn : Net.canonical net = String.ofList (trim net.toList) := by
      simp only [Net.canonical, h]; rfl
    rw [hn]
    simp only [Net.canonical, String.toList_ofList, Text.trim_trim, h]
    rfl

/-- A name of a net that has a node of its own: canonical, and neither blank nor ground. -/
structure Net.IsSignal (name : String) : Prop where
  canonical : Net.canonical name = name
  not_blank : name ≠ ""
  not_ground : name ≠ Net.ground

/-- A net is blank, ground, or a signal by its canonical name. -/
theorem Net.isSignal_canonical {net : String}
    (h : ¬ (Net.canonical net = "" ∨ Net.canonical net = Net.ground)) :
    Net.IsSignal (Net.canonical net) :=
  ⟨Net.canonical_canonical net, fun hb => h (.inl hb), fun hg => h (.inr hg)⟩

/-! ## Bundles -/

namespace NodeTable

variable {t u v : NodeTable} {names : List String} {index : Int}

/-- The names that are no entry yet. -/
def fresh (t : NodeTable) (names : List String) : List String :=
  names.filter fun name => (t.entries.lookup name).isNone

/-- The table in which the new names among these are entered at a node. -/
def add (t : NodeTable) (names : List String) (index : Int) : NodeTable :=
  ⟨t.entries ++ (t.fresh names).map fun name => (name, index)⟩

/-- Whether a node is the one for a bundle: all names of the bundle that are entered have it, and if
there are none it is the next free one. -/
structure Fits (t : NodeTable) (names : List String) (index : Int) : Prop where
  agree : ∀ name ∈ names, ∀ i, t.entries.lookup name = some i → i = index
  origin : (∃ name ∈ names, t.entries.lookup name = some index) ∨
    (∀ name ∈ names, t.entries.lookup name = none) ∧ index = t.top + 1

theorem keys_add (t : NodeTable) (names : List String) (index : Int) :
    Assoc.keys (t.add names index).entries = Assoc.keys t.entries ++ t.fresh names := by
  simp [Assoc.keys, NodeTable.add, Function.comp_def]

theorem mem_fresh {x : String} :
    x ∈ t.fresh names ↔ x ∈ names ∧ x ∉ Assoc.keys t.entries := by
  rw [fresh, List.mem_filter, Option.isNone_iff_eq_none, Assoc.lookup_eq_none_iff]

/-- A table that comes from another by adding bundles of distinct signals in turn. -/
inductive Grows (t : NodeTable) : List (List String) → NodeTable → Prop where
  | refl : Grows t [] t
  | add {bundles : List (List String)} {u : NodeTable} {names : List String} {index : Int} :
      Grows t bundles u → (∀ name ∈ names, Net.IsSignal name) → names.Nodup →
      u.Fits names index → Grows t (bundles ++ [names]) (u.add names index)

theorem Grows.single (hs : ∀ name ∈ names, Net.IsSignal name) (hd : names.Nodup)
    (hf : t.Fits names index) : Grows t [names] (t.add names index) :=
  .add .refl hs hd hf

theorem Grows.trans {bundles others : List (List String)} (h₁ : Grows t bundles u)
    (h₂ : Grows u others v) : Grows t (bundles ++ others) v := by
  induction h₂ with
  | refl => rwa [List.append_nil]
  | add _ hs hd hf ih =>
    rw [← List.append_assoc]
    exact .add ih hs hd hf

theorem lookup_add_of_some {name : String} {i : Int} (h : t.entries.lookup name = some i) :
    (t.add names index).entries.lookup name = some i := by
  simp [add, List.lookup_append, h]

theorem lookup_add_of_mem (hf : t.Fits names index) {name : String} (h : name ∈ names) :
    (t.add names index).entries.lookup name = some index := by
  cases ht : t.entries.lookup name with
  | some i => rw [lookup_add_of_some ht, hf.agree name h i ht]
  | none =>
    have hmem : name ∈ t.fresh names := by simp [fresh, h, ht]
    have hd : ∀ l : List String, name ∈ l →
        (l.map fun name => (name, index)).lookup name = some index := by
      intro l hl
      induction l with
      | nil => cases hl
      | cons n l ih =>
        by_cases hn : name = n
        · simp [hn]
        · have hb : (name == n) = false := by simpa using hn
          rw [List.map_cons, List.lookup_cons, hb]
          exact ih ((List.mem_cons.mp hl).resolve_left hn)
    rw [add, List.lookup_append, ht, Option.none_or, hd _ hmem]

theorem lookup_add_of_not_mem {name : String} (h : name ∉ names) :
    (t.add names index).entries.lookup name = t.entries.lookup name := by
  have hnone : ((t.fresh names).map fun name => (name, index)).lookup name = none := by
    rw [Assoc.lookup_eq_none_iff]
    simp only [Assoc.keys, List.map_map]
    intro hm
    obtain ⟨n, hn, rfl⟩ := List.mem_map.mp hm
    exact h (List.mem_filter.mp hn).1
  rw [add, List.lookup_append, hnone, Option.or_none]

theorem Grows.entries_prefix {bundles : List (List String)} (h : Grows t bundles u) :
    t.entries <+: u.entries := by
  induction h with
  | refl => exact List.prefix_rfl
  | add _ _ _ _ ih => exact ih.trans (List.prefix_append _ _)

theorem Grows.lookup_of_some {bundles : List (List String)} (h : Grows t bundles u) {name : String}
    {i : Int} (hl : t.entries.lookup name = some i) : u.entries.lookup name = some i :=
  h.entries_prefix.lookup_eq_some hl

/-! ## Numbering -/

/-- The nodes in use, in the order in which they were first used. -/
def firstUses (t : NodeTable) : List Int := (t.entries.map (·.2)).eraseDups

/-- A well numbered table: ground comes first and is alone at node 0, names are canonical, not blank
and distinct, and the nodes in use are `0, …, k`, first used in this order. -/
structure Numbered (t : NodeTable) : Prop where
  ground_first : t.entries.head? = some (Net.ground, 0)
  ground_only : ∀ e ∈ t.entries, e.2 = 0 → e.1 = Net.ground
  canonical : ∀ e ∈ t.entries, Net.canonical e.1 = e.1 ∧ e.1 ≠ ""
  distinct : (Assoc.keys t.entries).Nodup
  in_order : ∃ k : Nat, t.firstUses = (List.range (k + 1)).map Int.ofNat

theorem Numbered.nonneg (ht : t.Numbered) {e : String × Int}
    (he : e ∈ t.entries) : 0 ≤ e.2 := by
  obtain ⟨k, hk⟩ := ht.in_order
  have huse : e.2 ∈ t.firstUses := List.mem_eraseDups.mpr (List.mem_map_of_mem he)
  rw [hk] at huse
  obtain ⟨j, -, hj⟩ := List.mem_map.mp huse
  rw [← hj]
  exact Int.natCast_nonneg j

theorem numbered_start : start.Numbered where
  ground_first := rfl
  ground_only := by intro e he _; simp_all [start]
  canonical := by
    intro e he
    rw [List.mem_singleton.mp he]
    exact ⟨Net.canonical_ground, by decide⟩
  distinct := by decide
  in_order := ⟨0, by decide⟩

theorem foldl_max_eq {nodes : List Int} {least k : Int} (hle : ∀ n ∈ nodes, n ≤ k)
    (hk : k ∈ nodes ∨ k = least) (hleast : least ≤ k) : nodes.foldl max least = k := by
  induction nodes generalizing least with
  | nil => simpa [eq_comm] using hk
  | cons n rest ih =>
    have hn := hle n (List.mem_cons_self ..)
    refine ih (fun m hm => hle m (List.mem_cons_of_mem _ hm)) ?_ (by omega)
    rcases hk with hk | rfl
    · rcases List.mem_cons.mp hk with rfl | hk
      · exact .inr (by omega)
      · exact .inl hk
    · exact .inr (by omega)

/-- The greatest node of a well numbered table is the last one first used. -/
theorem top_eq {k : Nat} (hk : t.firstUses = (List.range (k + 1)).map Int.ofNat) : t.top = k := by
  have hmem : ∀ n, n ∈ t.entries.map (·.2) ↔ ∃ j < k + 1, Int.ofNat j = n := by
    intro n
    rw [← List.mem_eraseDups, show (t.entries.map (·.2)).eraseDups = _ from hk]
    simp
  refine foldl_max_eq (fun n hn => ?_) (.inl ((hmem _).mpr ⟨k, by omega, rfl⟩)) (by omega)
  obtain ⟨j, hj, rfl⟩ := (hmem n).mp hn
  exact Int.ofNat_le.mpr (by omega)

/-- A bundle adds no node to those in use, or its own behind them. -/
theorem firstUses_add (names : List String) (index : Int) :
    (t.add names index).firstUses =
      t.firstUses ++ if t.fresh names = [] ∨ index ∈ t.firstUses then [] else [index] := by
  have hvals : (t.add names index).entries.map (·.2) =
      t.entries.map (·.2) ++ List.replicate (t.fresh names).length index := by
    simp [add, Function.comp_def]
  unfold firstUses
  rw [hvals, List.eraseDups_append]
  congr 1
  by_cases hi : index ∈ t.entries.map (·.2)
  · rw [if_pos (.inr (List.mem_eraseDups.mpr hi)), List.removeAll, List.filter_eq_nil_iff.mpr]
    · rfl
    · intro a ha
      rw [List.eq_of_mem_replicate ha]
      simpa using hi
  · rw [List.removeAll, List.filter_eq_self.mpr, eraseDups_replicate]
    · simp [hi, List.length_eq_zero_iff]
    · intro a ha
      rw [List.eq_of_mem_replicate ha]
      simpa using hi

theorem mem_firstUses_of_lookup {name : String} {i : Int} (h : t.entries.lookup name = some i) :
    i ∈ t.firstUses :=
  List.mem_eraseDups.mpr (List.mem_map_of_mem (Assoc.mem_of_lookup h))

/-- Adding a bundle of signals at its node keeps a table well numbered. -/
theorem Numbered.add (h : t.Numbered) (hs : ∀ name ∈ names, Net.IsSignal name) (hd : names.Nodup)
    (hf : t.Fits names index) : (t.add names index).Numbered := by
  obtain ⟨k, hk⟩ := h.in_order
  have hmem : ∀ e ∈ (t.add names index).entries, e ∈ t.entries ∨ e.1 ∈ names ∧ e.2 = index := by
    intro e he
    rcases List.mem_append.mp he with he | he
    · exact .inl he
    · obtain ⟨name, hn, rfl⟩ := List.mem_map.mp he
      exact .inr ⟨(List.mem_filter.mp hn).1, rfl⟩
  refine ⟨?_, ?_, ?_, ?_, ?_⟩
  · rw [NodeTable.add, List.head?_append, h.ground_first]; rfl
  · intro e he h0
    rcases hmem e he with he | ⟨-, rfl⟩
    · exact h.ground_only e he h0
    · -- a bundle's node is in use by a signal, or greater than all
      exfalso
      rcases hf.origin with ⟨name, hn, hl⟩ | ⟨-, htop⟩
      · rw [h0] at hl
        exact (hs name hn).not_ground (h.ground_only _ (Assoc.mem_of_lookup hl) rfl)
      · rw [top_eq hk] at htop
        omega
  · intro e he
    rcases hmem e he with he | ⟨hn, -⟩
    · exact h.canonical e he
    · exact ⟨(hs _ hn).canonical, (hs _ hn).not_blank⟩
  · rw [keys_add]
    refine List.nodup_append.mpr ⟨h.distinct, hd.filter _, fun a ha b hb hab => ?_⟩
    exact (mem_fresh.mp hb).2 (hab ▸ ha)
  · rw [firstUses_add, hk]
    split_ifs with hi
    · exact ⟨k, by rw [List.append_nil]⟩
    · rcases hf.origin with ⟨name, hn, hl⟩ | ⟨-, htop⟩
      · exact absurd (.inr (hk ▸ mem_firstUses_of_lookup hl)) hi
      · refine ⟨k + 1, ?_⟩
        rw [htop, top_eq hk, List.range_succ (n := k + 1), List.map_append]
        rfl

theorem Grows.numbered {bundles : List (List String)} (h : Grows t bundles u) (ht : t.Numbered) :
    u.Numbered := by
  induction h with
  | refl => exact ht
  | add _ hs hd hf ih => exact ih.add hs hd hf

end NodeTable

end Breadboard
