import Breadboard.Proofs.Command.OneCircuit
import Breadboard.Proofs.Csv.Exports
import Breadboard.Proofs.Json.Unread
import Breadboard.Proofs.Output.Probing
import Breadboard.Proofs.Output.WellFormed
import Breadboard.Proofs.Simulation.Totality

/-!
# Decoding saved output

Decoding reads the log and the deck, perhaps a node map, and decodes without an engine. None of the
files can be relied on, so everything that can be wrong with one has to end in an exit code. It does
with four exceptions: bytes that are no text, a path that no system call takes, a node map that is
nested too deep, and a node of the deck with too many digits.
-/

namespace Breadboard

/-! ## Reports that can be exported -/

namespace NetSeries

/-- All vectors are as long as the times. -/
def IsEven (l : NetSeries) : Prop := ∀ v ∈ l.voltages ++ l.currents, v.2.length = l.time.length

theorem IsEven.exists_text {l : NetSeries} (h : l.IsEven) (date circuit : String) :
    ∃ text, Csv.ofSeries date circuit l = .ok text := by
  by_cases htime : l.time = []
  · unfold Csv.ofSeries Csv.transientRecords
    rw [htime]
    exact ⟨_, rfl⟩
  · have hperm := (Csv.ascending_sorted l.voltages).perm.append
      (Csv.ascending_sorted l.currents).perm
    obtain ⟨rows, hrows, -⟩ := Csv.exists_tabulates fun v hv => h v (hperm.mem_iff.mp hv)
    exact ⟨_, Csv.ofSeries_eq htime hrows⟩

end NetSeries

namespace Simulation

variable {components : List Component} {s : Settings} {deck : Deck} {report : SimulationReport}

end Simulation

namespace Command

open Text

variable {t : FileTree} {n : Json.Nesting} {s : Settings} {a : Surroundings} {c : Console}
  {crash : Crash} {file log deck : String} {nodeMap : Option String} {format : ResultFormat}
  {report : SimulationReport}

/-- A command that ends early does so with exit code 1, or it crashes. -/
def FailsWithOne {α : Type} (r : Except Halt α) : Prop := ∀ code, r = .error (.exit code) → code = 1

theorem FailsWithOne.bind {α β : Type} {r : Except Halt α} {f : α → Except Halt β}
    (hr : FailsWithOne r) (hf : ∀ a, FailsWithOne (f a)) : FailsWithOne (r >>= f) := by
  intro code h
  rcases bind_eq_error_iff.mp h with hfirst | ⟨a, -, hnext⟩
  · exact hr code hfirst
  · exact hf a code hnext

/-- How the program ends when its command ends like this. -/
def ended : Except Halt Nat → Except Crash Nat
  | .ok code => .ok code
  | .error (.exit code) => .ok code
  | .error (.crash c) => .error c

theorem ended_eq_ok_iff {r : Except Halt Nat} {code : Nat} :
    ended r = .ok code ↔ exitCode? r = some code := by
  rcases r with (code' | c) | code' <;> simp [ended, exitCode?]

theorem ended_eq_error_iff {r : Except Halt Nat} :
    ended r = .error crash ↔ r = .error (.crash crash) := by
  rcases r with (code | c) | code <;> simp [ended]

end Command

end Breadboard
