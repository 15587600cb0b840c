import Breadboard.Proofs.Netlist.JunctionNodes
import Breadboard.Proofs.Netlist.Lockstep

/-!
# Conflicts

A circuit stops at the first junction that joins nets of different nodes. Such nets have their nodes
from devices that became lines or from other junctions, and the nodes differ exactly when no chain
of junctions links the nets. So a conflict need not concern any line: junctions alone can number the
nets of a further one apart (`Connectivity.ofComponents_eq_error_iff`).
-/

namespace Breadboard

open Relation

/-! ## Where a run stops -/

namespace Junction

theorem disagree_iff {nodes : List (String × Int)} :
    disagree nodes = true ↔ ∃ m ∈ nodes, ∃ n ∈ nodes, m.2 ≠ n.2 := by
  cases nodes with
  | nil => simp [disagree]
  | cons first rest =>
    constructor
    · intro h
      obtain ⟨m, hm, hne⟩ := List.any_eq_true.mp h
      exact ⟨m, List.mem_cons_of_mem first hm, first, List.mem_cons_self, by simpa using hne⟩
    · rintro ⟨m, hm, n, hn, hne⟩
      -- two nodes that differ cannot both be the first one
      rw [← Bool.not_eq_false, disagree_cons_eq_false]
      intro hall
      have hsame : ∀ k ∈ first :: rest, k.2 = first.2 := List.forall_mem_cons.mpr ⟨rfl, hall⟩
      exact hne ((hsame m hm).trans (hsame n hn).symm)

/-- Merging fails when the nets have different nodes, and names the junction and the nodes. -/
theorem merge_eq_error_iff {t : NodeTable} {c : Component} {e : JunctionConflict} :
    merge t c = .error e ↔
      disagree (numbered t (nets c)) = true ∧ e = ⟨c.designator, numbered t (nets c)⟩ := by
  unfold merge
  split
  · next first second rest hnets =>
    rw [hnets]
    dsimp only
    split
    · next hdis => simp [hdis, eq_comm]
    · next hdis => simp [hdis]
  · next hfew =>
    have hagree : disagree (numbered t (nets c)) = false := by
      cases hnets : nets c with
      | nil => rfl
      | cons first rest =>
        cases rest with
        | nil =>
          unfold numbered
          cases hl : t.lookup first <;> simp [hl, disagree]
        | cons second rest => exact absurd hnets (hfew first second rest)
    simp [hagree]

end Junction

namespace Assembly

variable {a : Assembly} {c : Component} {components : List Component} {e : JunctionConflict}

theorem place_eq_error_iff :
    a.place c = .error e ↔ c.kind = .junction ∧ Junction.merge a.nodes c = .error e := by
  unfold place
  cases c.kind with
  | junction =>
    dsimp only
    cases Junction.merge a.nodes c with
    | error e' => simp
    | ok r => simp
  | displayOnly => simp
  | unsupported => simp
  | device d => simp

theorem run_cons_of_place {b : Assembly} {line : Option DeviceLine} (h : a.place c = .ok (b, line))
    (rest : List Component) :
    a.run (c :: rest) = (b.run rest).map fun r => (r.1, line.toList ++ r.2) := by
  simp only [run, h]
  cases b.run rest <;> rfl

theorem run_append (a : Assembly) (before after : List Component) :
    a.run (before ++ after) =
      (a.run before).bind fun r => (r.1.run after).map fun q => (q.1, r.2 ++ q.2) := by
  induction before generalizing a with
  | nil =>
    show a.run after = (a.run after).map fun q => (q.1, [] ++ q.2)
    cases a.run after <;> rfl
  | cons c before ih =>
    cases hplace : a.place c with
    | error e =>
      simp only [List.cons_append, run, hplace]
      rfl
    | ok r =>
      rw [List.cons_append, run_cons_of_place hplace, run_cons_of_place hplace, ih]
      cases r.1.run before with
      | error e => rfl
      | ok q =>
        show ((q.1.run after).map _).map _ = (q.1.run after).map _
        cases q.1.run after with
        | error e => rfl
        | ok last => exact congrArg (fun l => Except.ok (last.1, l)) (List.append_assoc ..).symm

/-- A run stops at the first component that is not placed; what stands behind it is not read. -/
theorem run_eq_error_iff :
    a.run components = .error e ↔ ∃ before c after b lines, components = before ++ c :: after ∧
      a.run before = .ok (b, lines) ∧ b.place c = .error e := by
  constructor
  · intro h
    induction components generalizing a with
    | nil => cases h
    | cons c rest ih =>
      cases hplace : a.place c with
      | error e' =>
        simp only [run, hplace] at h
        cases h
        exact ⟨[], c, rest, a, [], rfl, rfl, hplace⟩
      | ok r =>
        rw [run_cons_of_place hplace] at h
        cases hrest : r.1.run rest with
        | ok q =>
          rw [hrest] at h
          cases h
        | error e' =>
          rw [hrest] at h
          cases h
          obtain ⟨before, c', after, b, lines, rfl, hbefore, hc⟩ := ih hrest
          refine ⟨c :: before, c', after, b, r.2.toList ++ lines, rfl, ?_, hc⟩
          rw [run_cons_of_place hplace, hbefore]
          rfl
  · rintro ⟨before, c, after, b, lines, rfl, hbefore, hc⟩
    rw [run_append, hbefore]
    show (b.run (c :: after)).map _ = _
    simp only [run, hc]
    rfl

end Assembly

theorem Deck.ofComponents_eq_error {components : List Component} {s : Settings}
    {e : JunctionConflict} :
    ofComponents components s = .error e ↔ Assembly.start.run components = .error e := by
  rw [ofComponents_eq]
  cases Assembly.start.run components <;> simp [Except.map]

/-! ## Nets that are numbered apart -/

namespace Connectivity

variable {components before : List Component} {s : Settings} {deck : Deck} {c : Component}
  {e : JunctionConflict} {x y : String} {i j : Int}

/-- A net has a node behind these components: it is on a device that became a line, or on a junction
that two signals are wired to. -/
def Met (components : List Component) (name : String) : Prop :=
  OnPlacedPin components name ∨ OnJoint components name

/-- A net is on a required pin of a device that became a line, or linked to one that is. -/
def Attached (components : List Component) (name : String) : Prop :=
  ∃ pin, OnPlacedPin components pin ∧ Linked components name pin

section Table

variable {t : NodeTable} (hg : NodeTable.start.Grows (components.flatMap Component.bundles) t)

include hg

theorem exists_lookup_iff (hx : Net.IsSignal x) :
    (∃ i, t.entries.lookup x = some i) ↔ Met components x := by
  have hkeys : x ∈ Assoc.keys t.entries ↔ Met components x := by
    rw [hg.mem_keys, exists_bundle_iff]
    simp [hx, hx.not_ground, Met]
  rw [← hkeys, ← Option.isSome_iff_exists, ← Option.ne_none_iff_isSome, Ne,
    Assoc.lookup_eq_none_iff, not_not]

/-- Signals have one node exactly when a chain of junctions links them. -/
theorem eq_iff_linked (hx : Net.IsSignal x) (hy : Net.IsSignal y)
    (hlx : t.entries.lookup x = some i) (hly : t.entries.lookup y = some j) :
    i = j ↔ Linked components x y := by
  constructor
  · rintro rfl
    refine ReflTransGen.lift' id (fun _ _ hxy => ?_) _ _
      (hg.linked hx.not_ground hy.not_ground hlx hly)
    exact linked_of_together hxy
  · intro hl
    have heq := lookup_eq_of_linked hg hl
    rw [hlx, hly] at heq
    exact Option.some.inj heq

/-- The nets of a junction have different nodes exactly when two of them have nodes and no chain of
junctions links these. -/
theorem disagree_iff_not_linked :
    Junction.disagree (Junction.numbered t (Junction.nets c)) = true ↔
      ∃ x ∈ Junction.nets c, ∃ y ∈ Junction.nets c,
        Met components x ∧ Met components y ∧ ¬ Linked components x y := by
  have hs : ∀ name ∈ Junction.nets c, Net.IsSignal name := fun _ => Junction.isSignal_of_mem_nets
  rw [Junction.disagree_iff]
  constructor
  · rintro ⟨⟨x, i⟩, hm, ⟨y, j⟩, hn, hne⟩
    obtain ⟨hx, hlx⟩ := (Junction.mem_numbered hs).mp hm
    obtain ⟨hy, hly⟩ := (Junction.mem_numbered hs).mp hn
    exact ⟨x, hx, y, hy, (exists_lookup_iff hg (hs x hx)).mp ⟨i, hlx⟩,
      (exists_lookup_iff hg (hs y hy)).mp ⟨j, hly⟩,
      (eq_iff_linked hg (hs x hx) (hs y hy) hlx hly).not.mp hne⟩
  · rintro ⟨x, hx, y, hy, hmx, hmy, hl⟩
    obtain ⟨i, hlx⟩ := (exists_lookup_iff hg (hs x hx)).mpr hmx
    obtain ⟨j, hly⟩ := (exists_lookup_iff hg (hs y hy)).mpr hmy
    exact ⟨(x, i), (Junction.mem_numbered hs).mpr ⟨hx, hlx⟩, (y, j),
      (Junction.mem_numbered hs).mpr ⟨hy, hly⟩,
      (eq_iff_linked hg (hs x hx) (hs y hy) hlx hly).not.mpr hl⟩

end Table

/-! ## Conflicts of a circuit -/

/-- A junction that stops a circuit behind these components and their deck: two of the nets that it
joins have nodes and are not linked. The conflict names the junction and the nodes of its nets. -/
structure Stops (before : List Component) (deck : Deck) (c : Component) (e : JunctionConflict) :
    Prop where
  kind : c.kind = .junction
  designator : e.junction = c.designator
  nodes : e.nodes =
    (Junction.nets c).filterMap fun net => (deck.nodeMap.nodeOf net).map (net, ·)
  apart : ∃ x ∈ Junction.nets c, ∃ y ∈ Junction.nets c,
    Met before x ∧ Met before y ∧ ¬ Linked before x y

/-- Two nodes of a conflict differ, and both are on lines of a deck. -/
def PrintedApart (deck : Deck) (e : JunctionConflict) : Prop :=
  ∃ m ∈ e.nodes, ∃ n ∈ e.nodes, m.2 ≠ n.2 ∧ (∃ line ∈ deck.deviceLines, m.2 ∈ line.nodes) ∧
    ∃ line ∈ deck.deviceLines, n.2 ∈ line.nodes

theorem stops_iff {a : Assembly} {lines : List DeviceLine}
    (hrun : Assembly.start.run before = .ok (a, lines)) (hmap : deck.nodeMap = a.nodes.toNodeMap) :
    a.place c = .error e ↔ Stops before deck c e := by
  have hnodes : Junction.numbered a.nodes (Junction.nets c) =
      (Junction.nets c).filterMap fun net => (deck.nodeMap.nodeOf net).map (net, ·) := by
    rw [hmap]
    rfl
  rw [Assembly.place_eq_error_iff, Junction.merge_eq_error_iff,
    disagree_iff_not_linked (Assembly.run_grows hrun), hnodes]
  constructor
  · rintro ⟨hk, hapart, rfl⟩
    exact ⟨hk, rfl, rfl, hapart⟩
  · rintro ⟨hk, hjunction, hnodes, hapart⟩
    obtain ⟨junction, nodes⟩ := e
    cases hjunction
    cases hnodes
    exact ⟨hk, hapart, rfl⟩

/-- A run that does not fail gives a deck; a junction that is not placed behind it stops there. -/
theorem exists_stops_of_run (before : List Component) (s : Settings) (c : Component)
    (e : JunctionConflict) (a : Assembly) (lines : List DeviceLine)
    (h : (Assembly.start.run before).toOption = some (a, lines)) (hplace : a.place c = .error e) :
    ∃ deck, Deck.ofComponents before s = .ok deck ∧ deck.deviceLines = lines ∧
      Stops before deck c e := by
  have hrun : Assembly.start.run before = .ok (a, lines) := by
    cases hr : Assembly.start.run before with
    | error e' =>
      rw [hr] at h
      cases h
    | ok r =>
      rw [hr] at h
      exact congrArg Except.ok (Option.some.inj h)
  refine ⟨Deck.ofRun s a lines, ?_, rfl, (stops_iff hrun rfl).mp hplace⟩
  rw [Deck.ofComponents_eq, hrun]
  rfl

theorem exists_stops_iff :
    Deck.ofComponents components s = .error e ↔ ∃ before c after deck,
      components = before ++ c :: after ∧ Deck.ofComponents before s = .ok deck ∧
        Stops before deck c e := by
  rw [Deck.ofComponents_eq_error, Assembly.run_eq_error_iff]
  constructor
  · rintro ⟨before, c, after, a, lines, hsplit, hrun, hplace⟩
    refine ⟨before, c, after, Deck.ofRun s a lines, hsplit, ?_, (stops_iff hrun rfl).mp hplace⟩
    rw [Deck.ofComponents_eq, hrun]
    rfl
  · rintro ⟨before, c, after, deck, hsplit, hdeck, hstops⟩
    obtain ⟨a, hrun, hmap, -⟩ := Deck.exists_run hdeck
    exact ⟨before, c, after, a, _, hsplit, hrun, (stops_iff hrun hmap).mpr hstops⟩

theorem exists_on_line_iff (h : Deck.ofComponents before s = .ok deck) (hx : Net.IsSignal x) :
    (∃ i, deck.nodeMap.get? x = some i ∧ ∃ line ∈ deck.deviceLines, i ∈ line.nodes) ↔
      Attached before x := by
  simp only [exists_mem_nodes_iff h]
  obtain ⟨a, hrun, hmap, -⟩ := Deck.exists_run h
  have hg := Assembly.run_grows hrun
  have ht := hg.numbered NodeTable.numbered_start
  rw [hmap]
  constructor
  · rintro ⟨i, hlx, pin, hpin, hlp⟩
    -- the node of a signal is not 0, so the net on the pin is a signal too
    have hpg : pin ≠ Net.ground := by
      rintro rfl
      obtain rfl : i = 0 := Option.some.inj (hlp.symm.trans ht.lookup_ground)
      exact hx.not_ground ((ht.eq_zero_iff (Assoc.mem_of_lookup hlx)).mp rfl)
    refine ⟨pin, hpin, ReflTransGen.lift' id (fun _ _ hxy => ?_) _ _
      (hg.linked hx.not_ground hpg hlx hlp)⟩
    exact linked_of_together hxy
  · rintro ⟨pin, hpin, hlink⟩
    have hsig : Net.IsSignal pin := by
      rcases ReflTransGen.cases_tail hlink with rfl | ⟨_, -, hlast⟩
      · exact hx
      · exact hlast.2.1
    obtain ⟨i, hlp⟩ := (exists_lookup_iff hg hsig).mpr (.inl hpin)
    exact ⟨i, (lookup_eq_of_linked hg hlink).trans hlp, pin, hpin, hlp⟩

/-- The conflict of a junction concerns lines exactly when two of its nets are attached to devices
and not linked. -/
theorem printedApart_iff (h : Deck.ofComponents before s = .ok deck)
    (hstops : Stops before deck c e) :
    PrintedApart deck e ↔ ∃ x ∈ Junction.nets c, ∃ y ∈ Junction.nets c,
      Attached before x ∧ Attached before y ∧ ¬ Linked before x y := by
  have hs : ∀ name ∈ Junction.nets c, Net.IsSignal name := fun _ => Junction.isSignal_of_mem_nets
  have hline := fun x hx => exists_on_line_iff h (hs x hx)
  obtain ⟨a, hrun, hmap, -⟩ := Deck.exists_run h
  have hg := Assembly.run_grows hrun
  have hmem : ∀ {x i}, (x, i) ∈ e.nodes ↔ x ∈ Junction.nets c ∧ deck.nodeMap.get? x = some i := by
    intro x i
    rw [hstops.nodes, hmap]
    exact Junction.mem_numbered hs
  constructor
  · rintro ⟨⟨x, i⟩, hm, ⟨y, j⟩, hn, hne, hi, hj⟩
    obtain ⟨hx, hlx⟩ := hmem.mp hm
    obtain ⟨hy, hly⟩ := hmem.mp hn
    refine ⟨x, hx, y, hy, (hline x hx).mp ⟨i, hlx, hi⟩, (hline y hy).mp ⟨j, hly, hj⟩, ?_⟩
    rw [hmap] at hlx hly
    exact (eq_iff_linked hg (hs x hx) (hs y hy) hlx hly).not.mp hne
  · rintro ⟨x, hx, y, hy, hax, hay, hl⟩
    obtain ⟨i, hlx, hi⟩ := (hline x hx).mpr hax
    obtain ⟨j, hly, hj⟩ := (hline y hy).mpr hay
    refine ⟨(x, i), hmem.mpr ⟨hx, hlx⟩, (y, j), hmem.mpr ⟨hy, hly⟩, ?_, hi, hj⟩
    rw [hmap] at hlx hly
    exact (eq_iff_linked hg (hs x hx) (hs y hy) hlx hly).not.mpr hl

/-- **Conflicts.** A circuit stops exactly at a junction, behind components that give a deck, that
joins two nets which have nodes there and are not linked; the conflict names the junction and the
nodes. Two of these nodes differ and are both on lines of that deck exactly when two of the nets are
attached to devices and not linked: nets that only junctions have numbered are on no line. -/
theorem ofComponents_eq_error_iff (components : List Component) (s : Settings)
    (e : JunctionConflict) :
    (Deck.ofComponents components s = .error e ↔ ∃ before c after deck,
      components = before ++ c :: after ∧ Deck.ofComponents before s = .ok deck ∧
        Stops before deck c e) ∧
    ∀ before c deck, Deck.ofComponents before s = .ok deck → Stops before deck c e →
      (PrintedApart deck e ↔ ∃ x ∈ Junction.nets c, ∃ y ∈ Junction.nets c,
        Attached before x ∧ Attached before y ∧ ¬ Linked before x y) :=
  ⟨exists_stops_iff, fun _ _ _ => printedApart_iff⟩

/-- A junction, and two devices on nets of different nodes. -/
def tapped : List Component :=
  [.wired "J1" .junction [("1", "x"), ("2", " a")],
    .wired "1" (.device .resistor) [("1", "a"), ("2", "0")],
    .wired "2" (.device .resistor) [("1", "b"), ("2", "GND")]]

/-- A junction of a net on no device with one on the other side. -/
def tap : Component := .wired "J2" .junction [("1", "x "), ("2", "b")]

theorem ofComponents_eq_error_iff_tapped :
    Deck.ofComponents (tapped ++ [tap]) .defaults = .error ⟨"J2", [("x", 1), ("b", 2)]⟩ ∧
      ∃ x ∈ Junction.nets tap, ∃ y ∈ Junction.nets tap,
        Attached tapped x ∧ Attached tapped y ∧ ¬ Linked tapped x y := by
  obtain ⟨deck, h, hlines, hstops⟩ := exists_stops_of_run tapped .defaults tap
    ⟨"J2", [("x", 1), ("b", 2)]⟩ ⟨⟨[("0", 0), ("x", 1), ("a", 1), ("b", 2)]⟩, [], []⟩
    [⟨.resistor, "1", [1, 0], .value 1e3⟩, ⟨.resistor, "2", [2, 0], .value 1e3⟩]
    (by decide +kernel) rfl
  have hboth := ofComponents_eq_error_iff (tapped ++ [tap]) .defaults ⟨"J2", [("x", 1), ("b", 2)]⟩
  refine ⟨hboth.1.mpr ⟨tapped, tap, [], deck, rfl, h, hstops⟩,
    (hboth.2 tapped tap deck h hstops).mp ?_⟩
  unfold PrintedApart
  rw [hlines]
  decide

/-- Three junctions and a device behind them; the last junction joins nets of the other two. -/
def bridged : List Component :=
  [.wired "J1" .junction [("1", "a"), ("2", "b")], .wired "J2" .junction [("1", "c"), ("2", "d")],
    .wired "J3" .junction [("1", "b"), ("2", "c")],
    .wired "1" (.device .resistor) [("1", "a"), ("2", "0")]]

/-- Junctions that come before all devices conflict with one another, and no line names a node. -/
theorem conflict_without_line :
    ∃ before c after deck e, bridged = before ++ c :: after ∧
      (∀ j ∈ before ++ [c], j.kind = .junction) ∧ (∀ d ∈ after, d.kind ≠ .junction) ∧
      Deck.ofComponents before .defaults = .ok deck ∧
      Deck.ofComponents bridged .defaults = .error e ∧ Stops before deck c e ∧
      deck.deviceLines = [] ∧ ¬ PrintedApart deck e := by
  obtain ⟨deck, h, hlines, hstops⟩ := exists_stops_of_run (bridged.take 2) .defaults
    (.wired "J3" .junction [("1", "b"), ("2", "c")]) ⟨"J3", [("b", 1), ("c", 2)]⟩
    ⟨⟨[("0", 0), ("a", 1), ("b", 1), ("c", 2), ("d", 2)]⟩, [], []⟩ [] (by decide +kernel) rfl
  refine ⟨_, _, _, deck, _, rfl, by decide, by decide, h,
    exists_stops_iff.mpr ⟨_, _, _, deck, rfl, h, hstops⟩, hstops, hlines, ?_⟩
  rintro ⟨m, -, n, -, -, ⟨line, hline, -⟩, -⟩
  rw [hlines] at hline
  cases hline

end Connectivity

end Breadboard
