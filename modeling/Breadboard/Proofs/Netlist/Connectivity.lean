import Breadboard.Proofs.Netlist.Assembly
import Mathlib.Logic.Relation

/-!
# Nodes are connected nets

A junction points nets at a node in one go and keeps no record of earlier junctions. Still two
signals of a finished map have the same node exactly when a chain of junctions connects them: nets
that share a bundle have one node (`NodeTable.Grows.together`), and nets with one node are connected
by shared bundles (`NodeTable.Grows.linked`).

Ground takes no part in a chain: junctions leave it out.
-/

namespace Breadboard

open Relation

/-! ## Bundles and nodes -/

namespace NodeTable

variable {t u : NodeTable} {bundles : List (List String)} {x y : String} {i : Int}

/-- Two names stand in one of the bundles. -/
def Together (bundles : List (List String)) (x y : String) : Prop := ∃ b ∈ bundles, x ∈ b ∧ y ∈ b

theorem Together.symm (h : Together bundles x y) : Together bundles y x := by
  obtain ⟨b, hb, hx, hy⟩ := h
  exact ⟨b, hb, hy, hx⟩

theorem reflTransGen_together_symm (h : ReflTransGen (Together bundles) x y) :
    ReflTransGen (Together bundles) y x := by
  induction h with
  | refl => exact .refl
  | tail _ hxy ih => exact .head hxy.symm ih

theorem le_foldl_max (nodes : List Int) (least : Int) :
    least ≤ nodes.foldl max least ∧ ∀ n ∈ nodes, n ≤ nodes.foldl max least := by
  induction nodes generalizing least with
  | nil => simp
  | cons n rest ih =>
    obtain ⟨hl, hr⟩ := ih (max least n)
    rw [List.foldl_cons]
    refine ⟨by omega, fun m hm => ?_⟩
    rcases List.mem_cons.mp hm with rfl | hm
    · omega
    · exact hr m hm

theorem le_top (h : t.entries.lookup x = some i) : i ≤ t.top :=
  (le_foldl_max _ 0).2 i (List.mem_map_of_mem (Assoc.mem_of_lookup h))

/-- The names in a table are ground and those of the bundles that were added. -/
theorem Grows.mem_keys (h : start.Grows bundles u) :
    x ∈ Assoc.keys u.entries ↔ x = Net.ground ∨ ∃ b ∈ bundles, x ∈ b := by
  induction h with
  | refl => simp [start, Assoc.keys]
  | @add bundles u names index _ _ _ _ ih =>
    have hnew : (∃ b ∈ bundles ++ [names], x ∈ b) ↔ (∃ b ∈ bundles, x ∈ b) ∨ x ∈ names := by
      simp [or_and_right, exists_or]
    rw [keys_add, List.mem_append, mem_fresh, ih, hnew, ← or_assoc]
    by_cases hx : x = Net.ground ∨ ∃ b ∈ bundles, x ∈ b
    · simp only [hx, true_or]
    · simp only [hx, false_or, not_false_iff, and_true]

theorem Grows.together (h : t.Grows bundles u) :
    ∀ b ∈ bundles, ∃ i, ∀ name ∈ b, u.entries.lookup name = some i := by
  induction h with
  | refl => intro b hb; cases hb
  | @add bundles u names index _ _ _ hf ih =>
    intro b hb
    rcases List.mem_append.mp hb with hb | hb
    · obtain ⟨i, hi⟩ := ih b hb
      exact ⟨i, fun name hn => lookup_add_of_some (hi name hn)⟩
    · rw [List.mem_singleton.mp hb]
      exact ⟨index, fun name hn => lookup_add_of_mem hf hn⟩

theorem exists_mem_of_fits {names : List String} (hf : t.Fits names i)
    (hy : t.entries.lookup y = some i) : ∃ name ∈ names, t.entries.lookup name = some i := by
  rcases hf.origin with hold | ⟨-, htop⟩
  · exact hold
  · have := le_top hy
    omega

/-- Names other than ground that have the same node are connected by bundles. -/
theorem Grows.linked (h : start.Grows bundles u) :
    ∀ {x y : String} {i : Int}, x ≠ Net.ground → y ≠ Net.ground →
      u.entries.lookup x = some i → u.entries.lookup y = some i →
        ReflTransGen (Together bundles) x y := by
  induction h with
  | refl =>
    intro x y i hx _ hlx _
    exact absurd (List.mem_singleton.mp (Assoc.mem_of_lookup hlx)) (by simp [hx])
  | @add bundles u names index hu hs _ hf ih =>
    intro x y i hx hy hlx hly
    have hnew : Together (bundles ++ [names]) = fun x y =>
        Together bundles x y ∨ x ∈ names ∧ y ∈ names := by
      funext x y
      simp [Together, or_and_right, exists_or]
    have hmono : ∀ {x y}, ReflTransGen (Together bundles) x y →
        ReflTransGen (Together (bundles ++ [names])) x y := by
      intro x y hxy
      refine ReflTransGen.mono (fun a b hab => ?_) _ _ hxy
      rw [hnew]
      exact .inl hab
    have hpair : ∀ {x y}, x ∈ names → y ∈ names → Together (bundles ++ [names]) x y := by
      intro x y hxn hyn
      rw [hnew]
      exact .inr ⟨hxn, hyn⟩
    -- a new name and an old one of its node meet in a name of the bundle that is old
    have hmixed : ∀ {x y}, x ∈ names → y ∉ names → y ≠ Net.ground →
        (u.add names index).entries.lookup x = some i →
          (u.add names index).entries.lookup y = some i →
            ReflTransGen (Together (bundles ++ [names])) x y := by
      intro x y hxn hyn hy hlx hly
      rw [lookup_add_of_mem hf hxn] at hlx
      obtain rfl := Option.some.inj hlx
      rw [lookup_add_of_not_mem hyn] at hly
      obtain ⟨name, hn, hln⟩ := exists_mem_of_fits hf hly
      exact .head (hpair hxn hn) (hmono (ih (hs name hn).not_ground hy hln hly))
    by_cases hxn : x ∈ names
    · by_cases hyn : y ∈ names
      · exact .single (hpair hxn hyn)
      · exact hmixed hxn hyn hy hlx hly
    · by_cases hyn : y ∈ names
      · exact reflTransGen_together_symm (hmixed hyn hxn hx hly hlx)
      · rw [lookup_add_of_not_mem hxn] at hlx
        rw [lookup_add_of_not_mem hyn] at hly
        exact hmono (ih hx hy hlx hly)

end NodeTable

/-! ## Junctions and chains -/

/-- A net, by its canonical name, is wired to some pin of a component. -/
def Component.WiredTo (c : Component) (name : String) : Prop :=
  ∃ net ∈ c.nets, Net.canonical net = name

namespace Connectivity

variable {components : List Component} {x y : String}

/-- Two nets are wired to one common junction. -/
def ShareJunction (components : List Component) (x y : String) : Prop :=
  ∃ c ∈ components, c.kind = .junction ∧ c.WiredTo x ∧ c.WiredTo y

/-- Two signals are connected by a chain of signals, perhaps of one, in which neighbours are wired
to one common junction. -/
def Linked (components : List Component) : String → String → Prop :=
  ReflTransGen fun x y => Net.IsSignal x ∧ Net.IsSignal y ∧ ShareJunction components x y

/-- A net is on a required pin of a device that became a line. -/
def OnPlacedPin (components : List Component) (name : String) : Prop :=
  ∃ c ∈ components, ∃ d, c.kind = .device d ∧ c.isPlaced = true ∧
    ∃ label ∈ d.requiredPins, Net.canonical (c.netOf label) = name

/-- A net is on a junction that two different signals are wired to. -/
def OnJoint (components : List Component) (name : String) : Prop :=
  ∃ c ∈ components, c.kind = .junction ∧ c.WiredTo name ∧
    ∃ x y, x ≠ y ∧ Net.IsSignal x ∧ Net.IsSignal y ∧ c.WiredTo x ∧ c.WiredTo y

theorem mem_nets_iff {c : Component} : x ∈ Junction.nets c ↔ Net.IsSignal x ∧ c.WiredTo x := by
  rw [Junction.mem_nets]
  constructor
  · rintro ⟨⟨net, hn, rfl⟩, hb, hg⟩
    exact ⟨⟨Net.canonical_canonical net, hb, hg⟩, net, hn, rfl⟩
  · rintro ⟨hs, hw⟩
    exact ⟨hw, hs.not_blank, hs.not_ground⟩

theorem two_le_length {l : List String} (hx : x ∈ l) (hy : y ∈ l) (h : x ≠ y) : 2 ≤ l.length := by
  rcases l with _ | ⟨a, _ | ⟨b, rest⟩⟩
  · cases hx
  · rw [List.mem_singleton] at hx hy
    exact absurd (hx.trans hy.symm) h
  · simp

theorem exists_ne_of_two_le {l : List String} (hd : l.Nodup) (h : 2 ≤ l.length) :
    ∃ x ∈ l, ∃ y ∈ l, x ≠ y := by
  rcases l with _ | ⟨a, _ | ⟨b, rest⟩⟩
  · simp at h
  · simp at h
  · refine ⟨a, by simp, b, by simp, ?_⟩
    rintro rfl
    simp at hd

/-- The bundles of a junction that joins anything are its nets. -/
theorem mem_junction_bundles {c : Component} {b : List String} (hk : c.kind = .junction) :
    b ∈ c.bundles ↔ b = Junction.nets c ∧ 2 ≤ (Junction.nets c).length := by
  simp only [Component.bundles, hk, Junction.bundles]
  split_ifs with h <;> simp [h]

theorem mem_net_bundles {net : String} {b : List String} :
    b ∈ Net.bundles net ↔ b = [Net.canonical net] ∧ Net.IsSignal (Net.canonical net) := by
  unfold Net.bundles
  split_ifs with h
  · refine ⟨fun hb => (List.not_mem_nil hb).elim, fun ⟨_, hs⟩ => ?_⟩
    exact absurd h (not_or.mpr ⟨hs.not_blank, hs.not_ground⟩)
  · simp [Net.isSignal_canonical h]

/-- The bundles of a device that became a line are the signals on its required pins, one by one. -/
theorem mem_device_bundles {c : Component} {d : Device} {b : List String}
    (hk : c.kind = .device d) :
    b ∈ c.bundles ↔ c.isPlaced = true ∧ ∃ label ∈ d.requiredPins,
      b = [Net.canonical (c.netOf label)] ∧ Net.IsSignal (Net.canonical (c.netOf label)) := by
  simp only [Component.bundles, hk]
  split_ifs with h
  · simp [h, mem_net_bundles]
  · simp [h]

theorem exists_bundle_iff :
    (∃ b ∈ components.flatMap Component.bundles, x ∈ b) ↔
      Net.IsSignal x ∧ (OnPlacedPin components x ∨ OnJoint components x) := by
  constructor
  · rintro ⟨b, hb, hx⟩
    obtain ⟨c, hc, hb⟩ := List.mem_flatMap.mp hb
    cases hk : c.kind with
    | displayOnly => simp [Component.bundles, hk] at hb
    | unsupported => simp [Component.bundles, hk] at hb
    | junction =>
      obtain ⟨rfl, hlen⟩ := (mem_junction_bundles hk).mp hb
      obtain ⟨hs, hw⟩ := mem_nets_iff.mp hx
      obtain ⟨y, hy, z, hz, hne⟩ := exists_ne_of_two_le (Junction.nodup_nets c) hlen
      rw [mem_nets_iff] at hy hz
      exact ⟨hs, .inr ⟨c, hc, hk, hw, y, z, hne, hy.1, hz.1, hy.2, hz.2⟩⟩
    | device d =>
      obtain ⟨hp, label, hl, rfl, hs⟩ := (mem_device_bundles hk).mp hb
      rw [List.mem_singleton.mp hx]
      exact ⟨hs, .inl ⟨c, hc, d, hk, hp, label, hl, rfl⟩⟩
  · rintro ⟨hs, ⟨c, hc, d, hk, hp, label, hl, rfl⟩ | ⟨c, hc, hk, hw, y, z, hne, hys, hzs, hy, hz⟩⟩
    · refine ⟨[Net.canonical (c.netOf label)], List.mem_flatMap.mpr ⟨c, hc, ?_⟩, by simp⟩
      exact (mem_device_bundles hk).mpr ⟨hp, label, hl, rfl, hs⟩
    · refine ⟨Junction.nets c, List.mem_flatMap.mpr ⟨c, hc, ?_⟩, mem_nets_iff.mpr ⟨hs, hw⟩⟩
      refine (mem_junction_bundles hk).mpr ⟨rfl, ?_⟩
      exact two_le_length (mem_nets_iff.mpr ⟨hys, hy⟩) (mem_nets_iff.mpr ⟨hzs, hz⟩) hne

theorem linked_of_together (h : NodeTable.Together (components.flatMap Component.bundles) x y) :
    Linked components x y := by
  obtain ⟨b, hb, hx, hy⟩ := h
  obtain ⟨c, hc, hb⟩ := List.mem_flatMap.mp hb
  cases hk : c.kind with
  | displayOnly => simp [Component.bundles, hk] at hb
  | unsupported => simp [Component.bundles, hk] at hb
  | junction =>
    obtain ⟨rfl, -⟩ := (mem_junction_bundles hk).mp hb
    rw [mem_nets_iff] at hx hy
    exact .single ⟨hx.1, hy.1, c, hc, hk, hx.2, hy.2⟩
  | device d =>
    obtain ⟨-, label, -, rfl, -⟩ := (mem_device_bundles hk).mp hb
    rw [List.mem_singleton.mp hx, List.mem_singleton.mp hy]
    exact .refl

theorem lookup_eq_of_linked {t u : NodeTable}
    (hg : t.Grows (components.flatMap Component.bundles) u) (h : Linked components x y) :
    u.entries.lookup x = u.entries.lookup y := by
  induction h with
  | refl => rfl
  | @tail y z _ hyz ih =>
    rw [ih]
    obtain ⟨hys, hzs, c, hc, hk, hwy, hwz⟩ := hyz
    by_cases hne : y = z
    · rw [hne]
    · have hy := mem_nets_iff.mpr ⟨hys, hwy⟩
      have hz := mem_nets_iff.mpr ⟨hzs, hwz⟩
      have hb := (mem_junction_bundles hk).mpr ⟨rfl, two_le_length hy hz hne⟩
      obtain ⟨i, hi⟩ := hg.together _ (List.mem_flatMap.mpr ⟨c, hc, hb⟩)
      rw [hi y hy, hi z hz]

/-- **Connectivity.** The names in a finished map are ground, the signals on required pins of
devices that became lines, and the signals on junctions that two of them are wired to. Two names
other than ground have the same node exactly when a chain of junctions links them. -/
theorem same_node_iff_linked {s : Settings} {deck : Deck}
    (h : Deck.ofComponents components s = .ok deck) :
    (∀ name, name ∈ Assoc.keys deck.nodeMap.entries ↔ name = Net.ground ∨
        Net.IsSignal name ∧ (OnPlacedPin components name ∨ OnJoint components name)) ∧
      ∀ a b i j, deck.nodeMap.get? a = some i → deck.nodeMap.get? b = some j →
        a ≠ Net.ground → b ≠ Net.ground → (i = j ↔ Linked components a b) := by
  obtain ⟨last, hrun, hmap, -⟩ := Deck.exists_run h
  have hg := Assembly.run_grows hrun
  rw [hmap]
  constructor
  · intro name
    rw [← exists_bundle_iff]
    exact hg.mem_keys
  · intro a b i j ha hb hag hbg
    constructor
    · rintro rfl
      refine ReflTransGen.lift' id (fun x y hxy => ?_) _ _ (hg.linked hag hbg ha hb)
      exact linked_of_together hxy
    · intro hl
      have heq : some i = some j := by
        rw [← ha, ← hb]
        exact lookup_eq_of_linked hg hl
      exact Option.some.inj heq

/-- Two junctions that meet in `b`, and a device between them. -/
def meeting : List Component :=
  [.wired "J1" .junction [("1", "a"), ("2", "b")],
    .wired "1" (.device .resistor) [("1", "a"), ("2", "d")],
    .wired "J2" .junction [("1", " c"), ("2", "b ")]]

theorem same_node_iff_linked_meeting :
    ∃ deck, Deck.ofComponents meeting .defaults = .ok deck ∧ deck.nodeMap.get? "a" = some 1 ∧
      deck.nodeMap.get? "c" = some 1 ∧ ((1 : Int) = 1 ↔ Linked meeting "a" "c") := by
  obtain ⟨deck, h, -, hmap⟩ := Deck.exists_of_run meeting .defaults
    ⟨⟨[("0", 0), ("a", 1), ("b", 1), ("d", 2), ("c", 1)]⟩, [], []⟩
    [⟨.resistor, "1", [1, 2], .value 1e3⟩] (by decide +kernel)
  have ha : deck.nodeMap.get? "a" = some 1 := by rw [hmap]; rfl
  have hc : deck.nodeMap.get? "c" = some 1 := by rw [hmap]; rfl
  exact ⟨deck, h, ha, hc, (same_node_iff_linked h).2 "a" "c" 1 1 ha hc (by decide) (by decide)⟩

/-- Two junctions that share no net but ground, behind the devices on their nets. -/
def grounded : List Component :=
  [.wired "1" (.device .resistor) [("1", "a"), ("2", "0")],
    .wired "2" (.device .resistor) [("1", "b"), ("2", "0")],
    .wired "J1" .junction [("1", "a"), ("2", "GND")],
    .wired "J2" .junction [("1", "GND"), ("2", "b")]]

/-- Ground does not link: a chain of nets that passes through it connects nets of different nodes.
-/
theorem ground_does_not_link :
    ∃ deck, Deck.ofComponents grounded .defaults = .ok deck ∧ deck.nodeMap.get? "a" = some 1 ∧
      deck.nodeMap.get? "b" = some 2 ∧
      ¬ ((1 : Int) = 2 ↔ "a" = "b" ∨ ReflTransGen (ShareJunction grounded) "a" "b") := by
  obtain ⟨deck, h, -, hmap⟩ := Deck.exists_of_run grounded .defaults
    ⟨⟨[("0", 0), ("a", 1), ("b", 2)]⟩, [], []⟩
    [⟨.resistor, "1", [1, 0], .value 1e3⟩, ⟨.resistor, "2", [2, 0], .value 1e3⟩]
    (by decide +kernel)
  refine ⟨deck, h, by rw [hmap]; rfl, by rw [hmap]; rfl, fun hiff => ?_⟩
  have hleft : ShareJunction grounded "a" Net.ground :=
    ⟨.wired "J1" .junction [("1", "a"), ("2", "GND")], by simp [grounded], rfl,
      ⟨"a", by decide, by decide⟩, "GND", by decide, by decide⟩
  have hright : ShareJunction grounded Net.ground "b" :=
    ⟨.wired "J2" .junction [("1", "GND"), ("2", "b")], by simp [grounded], rfl,
      ⟨"GND", by decide, by decide⟩, "b", by decide, by decide⟩
  exact absurd (hiff.mpr (.inr (.head hleft (.single hright)))) (by decide)

end Connectivity

end Breadboard
