import Breadboard.Proofs.Netlist.Connectivity
import Breadboard.Proofs.Netlist.Lockstep
import Breadboard.Proofs.Netlist.TwoPass

/-!
# Components left out

A component that has no line and joins no nets leaves the node table as it is
(`Component.IsIdle.exists_place`), and nothing but the table decides what later components do
(`Assembly.lockstep_place_of_nodes`). So a circuit compiles as before with any such components left
out, but for the notices about them.
-/

namespace Breadboard

open TwoPass

/-- A component that has no line and joins no nets: an instrument, a component of an unsupported
kind, a device with a required pin that is not wired, or a junction that fewer than two signals are
wired to. -/
inductive Component.IsIdle (c : Component) : Prop where
  | instrument : c.kind = .displayOnly → c.IsIdle
  | unsupported : c.kind = .unsupported → c.IsIdle
  | unwired {d : Device} {label : String} : c.kind = .device d → label ∈ d.requiredPins →
      Net.canonical (c.netOf label) = "" → c.IsIdle
  | junction : c.kind = .junction → (∀ x y, Net.IsSignal x → Net.IsSignal y →
      c.WiredTo x → c.WiredTo y → x = y) → c.IsIdle

/-- A circuit and what is kept of it, with some of its idle components left out. -/
inductive Thinned : List Component → List Component → Prop where
  | nil : Thinned [] []
  | keep (c : Component) {full kept : List Component} : Thinned full kept →
      Thinned (c :: full) (c :: kept)
  | leaveOut {c : Component} {full kept : List Component} : c.IsIdle → Thinned full kept →
      Thinned (c :: full) kept

variable {c : Component}

theorem Junction.merge_of_subsingleton
    (h : ∀ x y, Net.IsSignal x → Net.IsSignal y → c.WiredTo x → c.WiredTo y → x = y)
    (t : NodeTable) : merge t c = .ok (t, none) := by
  have hlen : ¬ 2 ≤ (nets c).length := by
    intro hlen
    obtain ⟨x, hx, y, hy, hne⟩ := Connectivity.exists_ne_of_two_le (nodup_nets c) hlen
    rw [Connectivity.mem_nets_iff] at hx hy
    exact hne (h x y hx.1 hy.1 hx.2 hy.2)
  unfold merge
  split
  · next hnets =>
    rw [hnets] at hlen
    exact absurd (Nat.le_add_left 2 _) hlen
  · rfl

/-- An idle component is placed, gives no line, and leaves the nodes as they are. -/
theorem Component.IsIdle.exists_place (h : c.IsIdle) (a : Assembly) :
    ∃ b, a.place c = .ok (b, none) ∧ b.nodes = a.nodes := by
  unfold Assembly.place
  cases h with
  | instrument hk =>
    rw [hk]
    exact ⟨a, rfl, rfl⟩
  | unsupported hk =>
    rw [hk]
    exact ⟨_, rfl, rfl⟩
  | @unwired d label hk hl hblank =>
    have hu : d.unwiredPins c ≠ [] := fun hnil =>
      Device.unwiredPins_eq_nil_iff.mp hnil label hl hblank
    rw [hk]
    simp only [Assembly.placeDevice]
    exact ⟨_, rfl, rfl⟩
  | junction hk hone =>
    rw [hk]
    simp only [Junction.merge_of_subsingleton hone]
    exact ⟨a, rfl, rfl⟩

namespace Assembly

variable {a a' b : Assembly}

/-- The nodes of two assemblies are the same. -/
def SameNodes (a a' : Assembly) : Prop := a'.nodes = a.nodes

/-- What a component does is decided by the nodes alone. -/
theorem lockstep_place_of_nodes (h : SameNodes a a') (c : Component) :
    Lockstep Eq (SameOutput SameNodes) (a.place c) (a'.place c) := by
  unfold SameNodes at h
  unfold place
  cases c.kind with
  | displayOnly => exact .ok ⟨h, rfl⟩
  | unsupported => exact .ok ⟨h, rfl⟩
  | junction =>
    simp only [h]
    cases Junction.merge a.nodes c with
    | error e => exact .error rfl
    | ok r => exact .ok ⟨rfl, rfl⟩
  | device d =>
    simp only [placeDevice, h]
    cases d.unwiredPins c with
    | nil =>
      refine .ok ⟨?_, rfl⟩
      unfold SameNodes
      rw [use_nodes, use_nodes]
    | cons => exact .ok ⟨h, rfl⟩

theorem run_cons_of_no_line (h : a.place c = .ok (b, none)) (rest : List Component) :
    a.run (c :: rest) = b.run rest := by
  rw [run]
  simp only [h]
  cases b.run rest <;> rfl

theorem lockstep_run_thinned {full kept : List Component} (hc : Thinned full kept)
    (h : SameNodes a a') :
    Lockstep Eq (SameOutput SameNodes) (a.run full) (a'.run kept) := by
  induction hc generalizing a a' with
  | nil => exact .ok ⟨h, rfl⟩
  | keep c _ ih => exact lockstep_run_cons (lockstep_place_of_nodes h c) fun _ _ hb => ih hb
  | leaveOut hidle _ ih =>
    -- one run takes a step that the other has not, and both are at the same nodes again
    obtain ⟨b, hplace, hnodes⟩ := hidle.exists_place a
    rw [run_cons_of_no_line hplace]
    exact ih (h.trans hnodes.symm)

end Assembly

namespace Deck

/-- **Components left out.** A circuit and what is kept of it go in lock-step: both stop with the
same conflict, or both give a deck, with the same text, lines and map. The notices of the one are
those about its own skipped components, the notices of the other those about the skipped components
that were kept, and behind them both have the same ones about models. -/
theorem lockstep_thinned {full kept : List Component} (hc : Thinned full kept) (s : Settings) :
    Lockstep Eq
      (fun deck deck' => deck'.text = deck.text ∧ deck'.deviceLines = deck.deviceLines ∧
        deck'.nodeMap = deck.nodeMap ∧
        deck.diagnostics = (full.filter isSkipped).map skipText ++ modelTexts deck.deviceLines ∧
        deck'.diagnostics = (kept.filter isSkipped).map skipText ++ modelTexts deck.deviceLines)
      (ofComponents full s) (ofComponents kept s) := by
  have hdecks : Lockstep Eq (fun deck deck' => deck'.text = deck.text ∧
      deck'.deviceLines = deck.deviceLines ∧ deck'.nodeMap = deck.nodeMap)
      (ofComponents full s) (ofComponents kept s) := by
    refine lockstep_ofComponents (Assembly.lockstep_run_thinned hc rfl) fun a a' deviceLines h => ?_
    have hmap : a'.nodes.toNodeMap = a.nodes.toNodeMap := congrArg NodeTable.toNodeMap h
    exact ⟨ofRun_text_congr s deviceLines (congrArg vectors hmap), rfl, hmap⟩
  -- the notices of each deck are known from its own components, so they need no lock-step
  refine hdecks.mono (fun _ _ => id) fun deck deck' hfull hkept ⟨htext, hlines, hmap⟩ => ?_
  refine ⟨htext, hlines, hmap, diagnostics_eq hfull, ?_⟩
  rw [← hlines]
  exact diagnostics_eq hkept

/-- Devices among components of every idle kind. -/
def cluttered : List Component :=
  [.wired "P" .displayOnly [("1", "p")], .wired "1" (.device .resistor) [("1", "a"), ("2", "gnd")],
    .wired "2" (.device .resistor) [("1", "q"), ("2", " ")],
    .wired "J" .junction [("1", " r "), ("2", "GND"), ("3", "r")],
    .wired "X" .unsupported [("1", "s")],
    .wired "3" (.device .resistor) [("1", "b"), ("2", "a")],
    .wired "Y" .unsupported [("1", "b")]]

/-- The devices, and one of the components that are skipped. -/
def cleared : List Component :=
  [.wired "1" (.device .resistor) [("1", "a"), ("2", "gnd")],
    .wired "3" (.device .resistor) [("1", "b"), ("2", "a")],
    .wired "Y" .unsupported [("1", "b")]]

theorem thinned_cluttered : Thinned cluttered cleared := by
  have hunwired : (Component.wired "2" (.device .resistor) [("1", "q"), ("2", " ")]).IsIdle :=
    have hpin : "2" ∈ Device.resistor.requiredPins := by decide
    .unwired rfl hpin (by decide)
  have hsingle :
      (Component.wired "J" .junction [("1", " r "), ("2", "GND"), ("3", "r")]).IsIdle := by
    have hnets : ∀ x ∈ [" r ", "GND", "r"],
        Net.canonical x = Net.ground ∨ Net.canonical x = "r" := by decide
    refine .junction rfl ?_
    rintro _ _ hx hy ⟨x, hmx, rfl⟩ ⟨y, hmy, rfl⟩
    rw [(hnets x hmx).resolve_left hx.not_ground, (hnets y hmy).resolve_left hy.not_ground]
  exact .leaveOut (.instrument rfl) (.keep _ (.leaveOut hunwired (.leaveOut hsingle
    (.leaveOut (.unsupported rfl) (.keep _ (.keep _ .nil))))))

theorem lockstep_thinned_cluttered :
    ∃ deck deck', ofComponents cluttered .defaults = .ok deck ∧
      ofComponents cleared .defaults = .ok deck' ∧ deck'.text = deck.text ∧
      deck'.deviceLines = deck.deviceLines ∧ deck'.nodeMap = deck.nodeMap ∧
      deck.nodeMap.entries = [("0", 0), ("a", 1), ("b", 2)] ∧
      deck.diagnostics = ["Skipped 2: pin(s) 2 not connected",
        "Skipped X: unsupported component kind ''", "Skipped Y: unsupported component kind ''"] ∧
      deck'.diagnostics = ["Skipped Y: unsupported component kind ''"] := by
  obtain ⟨deck, h, hlines, hmap⟩ := exists_of_run cluttered .defaults
    ⟨⟨[("0", 0), ("a", 1), ("b", 2)]⟩,
      [.unwired "2" ["2"], .unsupported "X" "", .unsupported "Y" ""], []⟩
    [⟨.resistor, "1", [1, 0], .value 1e3⟩, ⟨.resistor, "3", [2, 1], .value 1e3⟩]
    (by decide +kernel)
  obtain ⟨deck', h', -, -⟩ := exists_of_run cleared .defaults
    ⟨⟨[("0", 0), ("a", 1), ("b", 2)]⟩, [.unsupported "Y" ""], []⟩
    [⟨.resistor, "1", [1, 0], .value 1e3⟩, ⟨.resistor, "3", [2, 1], .value 1e3⟩]
    (by decide +kernel)
  have hlockstep := lockstep_thinned thinned_cluttered .defaults
  rw [h, h'] at hlockstep
  cases hlockstep with
  | ok hdecks =>
    obtain ⟨htext, hdevices, hnodes, hnotices, hnotices'⟩ := hdecks
    rw [hlines] at hnotices hnotices'
    refine ⟨deck, deck', h, h', htext, hdevices, hnodes, by rw [hmap]; rfl, ?_, ?_⟩
    · rw [hnotices]
      decide +kernel
    · rw [hnotices']
      decide +kernel

end Deck

end Breadboard
