import Breadboard.Netlist.Deck
import Breadboard.Proofs.Netlist.Operations

/-!
# Components and runs

What one component can do to an assembly is listed once (`Assembly.Placed`). A component adds the
bundles of its pins to the node table (`Assembly.place_grows`), so a run adds the bundles of its
components one after another, whatever their order (`Assembly.run_grows`). Facts about runs follow
from facts about one component by `Assembly.run_induction`.
-/

namespace Breadboard

/-- A component of a kind with these pins, wired to these nets, and nothing else said of it. -/
def Component.wired (ref : String) (kind : Kind) (pins : List (String × String)) : Component :=
  ⟨"", ref, kind, none, none, pins.map fun p => (p.1, ⟨p.2, .null⟩), "", ""⟩

/-- Whether a component becomes a line: a device whose required pins are all wired. -/
def Component.isPlaced (c : Component) : Bool :=
  match c.kind with
  | .device d => d.requiredPins.all fun label => Net.canonical (c.netOf label) != ""
  | _ => false

/-- The bundles that a component adds. -/
def Component.bundles (c : Component) : List (List String) :=
  match c.kind with
  | .junction => Junction.bundles c
  | .device d => if c.isPlaced then (d.requiredPins.map c.netOf).flatMap Net.bundles else []
  | _ => []

theorem Device.unwiredPins_eq_nil_iff {d : Device} {c : Component} :
    d.unwiredPins c = [] ↔ ∀ label ∈ d.requiredPins, Net.canonical (c.netOf label) ≠ "" := by
  simp [unwiredPins]

theorem Component.isPlaced_device {c : Component} {d : Device} (h : c.kind = .device d) :
    c.isPlaced = true ↔ d.unwiredPins c = [] := by
  rw [Device.unwiredPins_eq_nil_iff]
  simp [isPlaced, h]

namespace Assembly

variable {a b : Assembly} {c : Component} {line : Option DeviceLine}

@[simp] theorem report_models (a : Assembly) (d : Diagnostic) :
    (a.report d).models = a.models := rfl

@[simp] theorem use_nodes (a : Assembly) (model : Option String) :
    (a.use model).nodes = a.nodes := by
  unfold use
  split <;> [rfl; split_ifs <;> rfl]

@[simp] theorem use_diagnostics (a : Assembly) (model : Option String) :
    (a.use model).diagnostics = a.diagnostics := by
  unfold use
  split <;> [rfl; split_ifs <;> rfl]

/-- The line of a device whose nets have these nodes. -/
def lineOf (d : Device) (c : Component) (nodes : List Int) : DeviceLine :=
  ⟨d, c.designator, nodes, d.tail c⟩

/-- All that one component can do to an assembly. -/
inductive Placed (a : Assembly) (c : Component) : Assembly → Option DeviceLine → Prop where
  | instrument : c.kind = .displayOnly → Placed a c a none
  | junction {nodes : NodeTable} {node : Option Int} : c.kind = .junction →
      Junction.merge a.nodes c = .ok (nodes, node) → Placed a c { a with nodes } none
  | unsupported : c.kind = .unsupported →
      Placed a c (a.report (.unsupported c.designator c.kindWord)) none
  | unwired {d : Device} : c.kind = .device d → d.unwiredPins c ≠ [] →
      Placed a c (a.report (.unwired c.designator (d.unwiredPins c))) none
  | device {d : Device} {nodes : NodeTable} {indices : List Int} : c.kind = .device d →
      d.unwiredPins c = [] → a.nodes.enterAll (d.requiredPins.map c.netOf) = (indices, nodes) →
      Placed a c ({ a with nodes }.use (lineOf d c indices).model?) (some (lineOf d c indices))

theorem placed_of_place (h : a.place c = .ok (b, line)) : Placed a c b line := by
  unfold place at h
  cases hk : c.kind with
  | displayOnly =>
    simp only [hk, Except.ok.injEq, Prod.mk.injEq] at h
    obtain ⟨rfl, rfl⟩ := h
    exact .instrument hk
  | unsupported =>
    simp only [hk, Except.ok.injEq, Prod.mk.injEq] at h
    obtain ⟨rfl, rfl⟩ := h
    exact .unsupported hk
  | junction =>
    simp only [hk] at h
    split at h
    · cases h
    · next nodes node hm =>
      simp only [Except.ok.injEq, Prod.mk.injEq] at h
      obtain ⟨rfl, rfl⟩ := h
      exact .junction hk hm
  | device d =>
    simp only [hk, placeDevice, Except.ok.injEq] at h
    split at h
    · next hu =>
      simp only [Prod.mk.injEq] at h
      obtain ⟨rfl, rfl⟩ := h
      exact .device hk hu rfl
    · next hu =>
      simp only [Prod.mk.injEq] at h
      obtain ⟨rfl, rfl⟩ := h
      exact .unwired hk hu

theorem Placed.grows (h : Placed a c b line) : a.nodes.Grows c.bundles b.nodes := by
  cases h with
  | instrument hk =>
    simp only [Component.bundles, hk]
    exact .refl
  | junction hk hm =>
    simp only [Component.bundles, hk]
    exact Junction.merge_grows hm
  | unsupported hk =>
    simp only [Component.bundles, hk]
    exact .refl
  | unwired hk hu =>
    simp only [Component.bundles, hk, (Component.isPlaced_device hk).not.mpr hu]
    exact .refl
  | @device d _ _ hk hu he =>
    simp only [Component.bundles, hk, (Component.isPlaced_device hk).mpr hu, if_true, use_nodes]
    have hg := a.nodes.enterAll_grows (d.requiredPins.map c.netOf)
    rw [he] at hg
    exact hg

theorem place_grows (h : a.place c = .ok (b, line)) : a.nodes.Grows c.bundles b.nodes :=
  (placed_of_place h).grows

/-- What holds before a run and is kept by every component holds after the run: `P` speaks of the
components so far, the assembly and the lines so far. -/
theorem run_induction {P : List Component → Assembly → List DeviceLine → Prop}
    (step : ∀ {done a lines c b line}, P done a lines → Placed a c b line →
      P (done ++ [c]) b (lines ++ line.toList)) {components : List Component} :
    ∀ (done) {a} (lines) {b more}, P done a lines → a.run components = .ok (b, more) →
      P (done ++ components) b (lines ++ more) := by
  induction components with
  | nil =>
    intro done a lines b more hp h
    cases h
    rwa [List.append_nil, List.append_nil]
  | cons c rest ih =>
    intro done a lines b more hp h
    unfold run at h
    split at h
    · cases h
    · next a' line hplace =>
      split at h
      · cases h
      · next last later hrun =>
        simp only [Except.ok.injEq, Prod.mk.injEq] at h
        obtain ⟨rfl, rfl⟩ := h
        have hnext := ih _ _ (step hp (placed_of_place hplace)) hrun
        rwa [List.append_assoc, List.append_assoc] at hnext

/-- A run adds the bundles of its components in turn. -/
theorem run_grows {components : List Component} {lines : List DeviceLine}
    (h : a.run components = .ok (b, lines)) :
    a.nodes.Grows (components.flatMap Component.bundles) b.nodes := by
  refine run_induction (P := fun done b _ => a.nodes.Grows (done.flatMap Component.bundles) b.nodes)
    ?_ [] [] .refl h
  intro done u lines c v line hu hp
  rw [List.flatMap_append, List.flatMap_singleton]
  exact hu.trans hp.grows

end Assembly

/-! ## Decks -/

namespace Deck

variable {components : List Component} {s : Settings} {deck : Deck}

theorem exists_run (h : ofComponents components s = .ok deck) :
    ∃ a, Assembly.start.run components = .ok (a, deck.deviceLines) ∧
      deck.nodeMap = a.nodes.toNodeMap ∧
      deck.diagnostics = (a.diagnostics ++ a.undefinedModels).map Diagnostic.message := by
  unfold ofComponents at h
  split at h
  · cases h
  · next a lines hrun =>
    cases h
    exact ⟨a, hrun, rfl, rfl⟩

/-- The map of a deck is that of a well numbered table. -/
theorem exists_numbered (h : ofComponents components s = .ok deck) :
    ∃ t : NodeTable, t.Numbered ∧ deck.nodeMap = t.toNodeMap := by
  obtain ⟨a, hrun, hmap, -⟩ := exists_run h
  exact ⟨a.nodes, (Assembly.run_grows hrun).numbered NodeTable.numbered_start, hmap⟩

theorem exists_of_run (components : List Component) (s : Settings) (a : Assembly)
    (lines : List DeviceLine)
    (h : (Assembly.start.run components).toOption = some (a, lines)) :
    ∃ deck, ofComponents components s = .ok deck ∧ deck.deviceLines = lines ∧
      deck.nodeMap = a.nodes.toNodeMap := by
  unfold ofComponents
  cases hrun : Assembly.start.run components with
  | error e =>
    rw [hrun] at h
    cases h
  | ok r =>
    rw [hrun] at h
    cases h
    exact ⟨_, rfl, rfl, rfl⟩

end Deck

end Breadboard
