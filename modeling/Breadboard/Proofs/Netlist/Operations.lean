import Breadboard.Proofs.Netlist.Growth

/-!
# What entering and merging add to a node table

Entering a net adds it as a bundle of its own, and a junction that does not fail adds its nets as
one bundle (`NodeTable.enter_grows`, `Junction.merge_grows`). No net that has a node is moved.
-/

namespace Breadboard

/-! ## Entering nets -/

/-- The bundles of a pin: its net alone if it is a signal. -/
def Net.bundles (net : String) : List (List String) :=
  if Net.canonical net = "" ∨ Net.canonical net = Net.ground then [] else [[Net.canonical net]]

namespace NodeTable

variable {t u : NodeTable}

theorem lookup_eq (t : NodeTable) (net : String) :
    t.lookup net = t.entries.lookup (Net.canonical net) := rfl

theorem Grows.lookup {bundles : List (List String)} (h : Grows t bundles u) {net : String} {i : Int}
    (hl : t.lookup net = some i) : u.lookup net = some i :=
  h.lookup_of_some hl

theorem fresh_singleton (t : NodeTable) (name : String) :
    t.fresh [name] = if (t.entries.lookup name).isNone then [name] else [] := by
  simp only [fresh, List.filter_cons, List.filter_nil]

theorem enter_signal (t : NodeTable) (net : String)
    (h : Net.IsSignal (Net.canonical net)) :
    ∃ index, t.enter net = (index, t.add [Net.canonical net] index) ∧
      t.Fits [Net.canonical net] index := by
  have hn : ¬ (Net.canonical net = "" ∨ Net.canonical net = Net.ground) :=
    not_or.mpr ⟨h.not_blank, h.not_ground⟩
  cases hl : t.entries.lookup (Net.canonical net) with
  | some index =>
    refine ⟨index, ?_, ⟨?_, .inl ⟨_, List.mem_singleton_self _, hl⟩⟩⟩
    · simp [enter, hn, hl, add, fresh_singleton]
    · intro name hname i hi
      rw [List.mem_singleton.mp hname, hl] at hi
      exact (Option.some.inj hi).symm
  | none =>
    have hnone : ∀ name ∈ [Net.canonical net], t.entries.lookup name = none := by
      intro name hname
      rw [List.mem_singleton.mp hname, hl]
    refine ⟨t.top + 1, ?_, ⟨?_, .inr ⟨hnone, rfl⟩⟩⟩
    · simp [enter, hn, hl, add, fresh_singleton]
    · intro name hname i hi
      rw [hnone name hname] at hi
      cases hi

theorem enter_other {net : String} (h : Net.canonical net = "" ∨ Net.canonical net = Net.ground) :
    t.enter net = (0, t) := by
  simp [enter, h]

theorem enter_grows (t : NodeTable) (net : String) : Grows t (Net.bundles net) (t.enter net).2 := by
  unfold Net.bundles
  split_ifs with h
  · rw [enter_other h]
    exact .refl
  · have hs := Net.isSignal_canonical h
    obtain ⟨index, he, hf⟩ := enter_signal t _ hs
    rw [he]
    exact .single (by simpa using hs) (List.pairwise_singleton _ _) hf

theorem Numbered.lookup_ground (ht : t.Numbered) : t.entries.lookup Net.ground = some 0 := by
  obtain ⟨e, rest, he⟩ : ∃ e rest, t.entries = e :: rest := by
    cases h : t.entries with
    | nil => have := ht.ground_first; simp [h] at this
    | cons e rest => exact ⟨e, rest, rfl⟩
  have hfirst := ht.ground_first
  rw [he, List.head?_cons, Option.some.injEq] at hfirst
  rw [he, hfirst, List.lookup_cons_self]

theorem Numbered.eq_zero_iff (ht : t.Numbered) {name : String} {k : Int}
    (he : (name, k) ∈ t.entries) : k = 0 ↔ name = Net.ground := by
  constructor
  · exact ht.ground_only _ he
  · rintro rfl
    exact Option.some.inj ((Assoc.lookup_of_mem ht.distinct he).symm.trans ht.lookup_ground)

/-- Ground and nothing else is node 0. -/
theorem Numbered.nodeOf_eq_zero_iff (ht : t.Numbered) (net : String) :
    t.toNodeMap.nodeOf net = some 0 ↔ Net.isGround net = true := by
  unfold Net.isGround
  rw [beq_iff_eq]
  constructor
  · intro hl
    exact (ht.eq_zero_iff (Assoc.mem_of_lookup hl)).mp rfl
  · intro hg
    show t.entries.lookup (Net.canonical net) = some 0
    rw [hg]
    exact ht.lookup_ground

theorem lookup_enter (ht : t.Numbered) {net : String} (hb : Net.canonical net ≠ "") :
    (t.enter net).2.lookup net = some (t.enter net).1 := by
  by_cases hg : Net.canonical net = Net.ground
  · rw [enter_other (.inr hg), lookup_eq, hg]
    exact ht.lookup_ground
  · obtain ⟨index, he, hf⟩ := enter_signal t net
      (Net.isSignal_canonical (not_or.mpr ⟨hb, hg⟩))
    rw [he, lookup_eq]
    exact lookup_add_of_mem hf (List.mem_singleton_self _)

theorem enterAll_cons (t : NodeTable) (net : String) (rest : List String) :
    t.enterAll (net :: rest) = ((t.enter net).1 :: ((t.enter net).2.enterAll rest).1,
      ((t.enter net).2.enterAll rest).2) := by
  rw [enterAll]

theorem enterAll_grows (t : NodeTable) (nets : List String) :
    Grows t (nets.flatMap Net.bundles) (t.enterAll nets).2 := by
  induction nets generalizing t with
  | nil => exact .refl
  | cons net rest ih =>
    rw [enterAll_cons, List.flatMap_cons]
    exact (enter_grows t net).trans (ih (t.enter net).2)

theorem lookup_enterAll (ht : t.Numbered) (nets : List String)
    (hb : ∀ net ∈ nets, Net.canonical net ≠ "") :
    nets.map (t.enterAll nets).2.lookup = (t.enterAll nets).1.map some := by
  induction nets generalizing t with
  | nil => rfl
  | cons net rest ih =>
    have hrest := enterAll_grows (t.enter net).2 rest
    have hnet := lookup_enter ht (hb net (List.mem_cons_self ..))
    have htail := ih ((enter_grows t net).numbered ht) fun n hn => hb n (List.mem_cons_of_mem _ hn)
    rw [enterAll_cons, List.map_cons, List.map_cons, hrest.lookup hnet, htail]

end NodeTable

/-! ## Junctions -/

namespace Junction

variable {t u : NodeTable} {c : Component} {names : List String} {index : Int}

theorem mem_nets {name : String} :
    name ∈ nets c ↔
      (∃ net ∈ c.nets, Net.canonical net = name) ∧ name ≠ "" ∧ name ≠ Net.ground := by
  simp [nets]

theorem isSignal_of_mem_nets {name : String} (h : name ∈ nets c) : Net.IsSignal name := by
  obtain ⟨⟨net, -, rfl⟩, hb, hg⟩ := mem_nets.mp h
  exact ⟨Net.canonical_canonical net, hb, hg⟩

theorem nodup_nets (c : Component) : (nets c).Nodup := nodup_eraseDups _

theorem mem_numbered (hs : ∀ name ∈ names, Net.IsSignal name) {name : String} {i : Int} :
    (name, i) ∈ numbered t names ↔ name ∈ names ∧ t.entries.lookup name = some i := by
  simp only [numbered, List.mem_filterMap, Option.map_eq_some_iff, Prod.mk.injEq]
  constructor
  · rintro ⟨n, hn, j, hj, rfl, rfl⟩
    rw [NodeTable.lookup_eq, (hs n hn).canonical] at hj
    exact ⟨hn, hj⟩
  · rintro ⟨hn, hl⟩
    refine ⟨name, hn, i, ?_, rfl, rfl⟩
    rwa [NodeTable.lookup_eq, (hs name hn).canonical]

theorem disagree_cons_eq_false {n : String × Int} {rest : List (String × Int)} :
    disagree (n :: rest) = false ↔ ∀ m ∈ rest, m.2 = n.2 := by
  simp [disagree]

theorem add_cons {name : String} (hn : name ∉ names) :
    t.add (name :: names) index = (t.add [name] index).add names index := by
  have hfresh : (t.add [name] index).fresh names = t.fresh names := by
    refine List.filter_congr fun m hm => ?_
    rw [NodeTable.lookup_add_of_not_mem]
    rintro hmem
    exact hn (List.mem_singleton.mp hmem ▸ hm)
  have hcons : t.fresh (name :: names) = t.fresh [name] ++ t.fresh names := by
    rw [← List.singleton_append, NodeTable.fresh, List.filter_append]
    rfl
  show NodeTable.mk _ = NodeTable.mk _
  rw [hfresh, hcons, List.map_append, ← List.append_assoc]
  rfl

/-- Pointing one name at the node of a bundle enters it there if it is new. -/
theorem assign_eq_add {name : String} (hs : Net.IsSignal name)
    (hi : ∀ i, t.entries.lookup name = some i → i = index) :
    t.assign name index = t.add [name] index := by
  have hn : ¬ (name = "" ∨ name = Net.ground) := not_or.mpr ⟨hs.not_blank, hs.not_ground⟩
  simp only [NodeTable.assign, hs.canonical, if_neg hn, NodeTable.add, NodeTable.fresh_singleton]
  cases hl : t.entries.lookup name with
  | some i =>
    obtain rfl := hi i hl
    rw [Assoc.put_of_lookup_eq_some hl]
    simp
  | none =>
    rw [Assoc.put_of_lookup_eq_none hl]
    rfl

theorem add_singleton_of_some {name : String} {i : Int} (h : t.entries.lookup name = some i) :
    t.add [name] index = t := by
  simp [NodeTable.add, NodeTable.fresh_singleton, h]

/-- Pointing the other nets of a junction at the node of the primary one adds them as a bundle: none
that has a node is moved. -/
theorem join_eq_add {primary : String} (hp : t.entries.lookup primary = some index)
    (hs : ∀ name ∈ names, Net.IsSignal name) (hd : names.Nodup)
    (ha : ∀ name ∈ names, ∀ i, t.entries.lookup name = some i → i = index) :
    join t primary index names = t.add names index := by
  induction names generalizing t with
  | nil => simp [join, NodeTable.add, NodeTable.fresh]
  | cons name rest ih =>
    obtain ⟨hn, hd⟩ := List.nodup_cons.mp hd
    have hstep : (if name = primary then t else t.assign name index) = t.add [name] index := by
      split_ifs with h
      · rw [h, add_singleton_of_some hp]
      · exact assign_eq_add (hs name (List.mem_cons_self ..)) (ha name (List.mem_cons_self ..))
    show join (if name = primary then t else t.assign name index) primary index rest = _
    rw [hstep, add_cons hn]
    refine ih (NodeTable.lookup_add_of_some hp) (fun m hm => hs m (List.mem_cons_of_mem _ hm)) hd ?_
    intro m hm i hi
    rw [NodeTable.lookup_add_of_not_mem] at hi
    · exact ha m (List.mem_cons_of_mem _ hm) i hi
    · rintro hmem
      exact hn (List.mem_singleton.mp hmem ▸ hm)

/-- Nets without a node get the next free one. -/
theorem join_new {first : String} (hs : ∀ name ∈ first :: names, Net.IsSignal name)
    (hd : (first :: names).Nodup) (hnone : ∀ name ∈ first :: names, t.entries.lookup name = none) :
    ∃ index, t.enter first = (index, t.add [first] index) ∧ t.Fits (first :: names) index ∧
      join (t.add [first] index) first index (first :: names) = t.add (first :: names) index := by
  have hfirst := hs first (List.mem_cons_self ..)
  obtain ⟨index, he, hf⟩ := NodeTable.enter_signal t first
    (hfirst.canonical.symm ▸ hfirst)
  rw [hfirst.canonical] at he hf
  have hfits : t.Fits (first :: names) index := by
    refine ⟨?_, .inr ⟨hnone, ?_⟩⟩
    · intro name hn i hi
      rw [hnone name hn] at hi
      cases hi
    · rcases hf.origin with ⟨name, hn, hl⟩ | ⟨-, htop⟩
      · rw [List.mem_singleton.mp hn, hnone first (List.mem_cons_self ..)] at hl
        cases hl
      · exact htop
  have hp := NodeTable.lookup_add_of_mem hf (List.mem_singleton_self first)
  refine ⟨index, he, hfits, ?_⟩
  rw [join_eq_add hp hs hd, add_cons (List.nodup_cons.mp hd).1, add_singleton_of_some hp,
    add_cons (List.nodup_cons.mp hd).1]
  intro name hn i hi
  by_cases h : name = first
  · rw [h, hp] at hi
    exact (Option.some.inj hi).symm
  · rw [NodeTable.lookup_add_of_not_mem (by simpa using h), hnone name hn] at hi
    cases hi

theorem join_old {n : String × Int} {more : List (String × Int)}
    (hs : ∀ name ∈ names, Net.IsSignal name) (hd : names.Nodup)
    (hn : numbered t names = n :: more) (hdis : disagree (numbered t names) = false) :
    t.enter n.1 = (n.2, t) ∧ t.Fits names n.2 ∧ join t n.1 n.2 names = t.add names n.2 := by
  obtain ⟨hmem, hl⟩ := (mem_numbered hs).mp (hn ▸ List.mem_cons_self .. : (n.1, n.2) ∈ _)
  have hsig := hs n.1 hmem
  obtain ⟨index, he, hf⟩ := NodeTable.enter_signal t n.1
    (hsig.canonical.symm ▸ hsig)
  rw [hsig.canonical] at he hf
  obtain rfl : n.2 = index := hf.agree n.1 (List.mem_singleton_self _) n.2 hl
  have hagree : ∀ name ∈ names, ∀ i, t.entries.lookup name = some i → i = n.2 := by
    intro name hname i hi
    have hin := (mem_numbered hs).mpr ⟨hname, hi⟩
    rw [hn] at hin hdis
    rcases List.mem_cons.mp hin with rfl | hin
    · rfl
    · exact disagree_cons_eq_false.mp hdis _ hin
  rw [he, add_singleton_of_some hl]
  exact ⟨rfl, ⟨hagree, .inl ⟨n.1, hmem, hl⟩⟩, join_eq_add hl hs hd hagree⟩

/-- What merging does when it does not fail: nothing for fewer than two nets, else it adds the nets
as one bundle and gives their node. -/
theorem merge_cases {node : Option Int} (h : merge t c = .ok (u, node)) :
    ((nets c).length < 2 ∧ u = t ∧ node = none) ∨
      ∃ index, 2 ≤ (nets c).length ∧ u = t.add (nets c) index ∧ node = some index ∧
        t.Fits (nets c) index := by
  have hs : ∀ name ∈ nets c, Net.IsSignal name := fun _ => isSignal_of_mem_nets
  have hd := nodup_nets c
  unfold merge at h
  generalize nets c = names at h hs hd ⊢
  rcases names with _ | ⟨first, _ | ⟨second, rest⟩⟩
  · cases h
    exact .inl ⟨by decide, rfl, rfl⟩
  · cases h
    exact .inl ⟨by simp, rfl, rfl⟩
  · right
    by_cases hdis : disagree (numbered t (first :: second :: rest)) = true
    · simp [hdis] at h
    · rw [Bool.not_eq_true] at hdis
      simp only [hdis, Bool.false_eq_true, if_false, primary] at h
      cases hnum : numbered t (first :: second :: rest) with
      | nil =>
        have hnone : ∀ name ∈ first :: second :: rest, t.entries.lookup name = none := by
          intro name hname
          rw [Option.eq_none_iff_forall_ne_some]
          intro i hi
          have hin := (mem_numbered hs).mpr ⟨hname, hi⟩
          rw [hnum] at hin
          cases hin
        obtain ⟨index, he, hf, hj⟩ := join_new hs hd hnone
        simp only [hnum, he, hj, Except.ok.injEq, Prod.mk.injEq] at h
        exact ⟨index, by simp, h.1.symm, h.2.symm, hf⟩
      | cons n more =>
        obtain ⟨he, hf, hj⟩ := join_old hs hd hnum hdis
        simp only [hnum, he, hj, Except.ok.injEq, Prod.mk.injEq] at h
        exact ⟨n.2, by simp, h.1.symm, h.2.symm, hf⟩

/-- The bundles of a junction: its nets as one, if there are two of them. -/
def bundles (c : Component) : List (List String) := if 2 ≤ (nets c).length then [nets c] else []

theorem merge_grows {node : Option Int} (h : merge t c = .ok (u, node)) :
    t.Grows (bundles c) u := by
  unfold bundles
  rcases merge_cases h with ⟨hlen, rfl, -⟩ | ⟨index, hlen, rfl, -, hf⟩
  · rw [if_neg (by omega)]
    exact .refl
  · rw [if_pos hlen]
    exact .single (fun _ => isSignal_of_mem_nets) (nodup_nets c) hf

end Junction

end Breadboard
