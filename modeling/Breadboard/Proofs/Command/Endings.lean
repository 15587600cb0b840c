import Breadboard.Command.Run

/-!
# How actions end

What an action tells and logs on the way has no bearing on what it does, so the ending of an action
is known up to its messages: its value, exit code or crash, the files, what was printed, and the
number of engine runs.
-/

namespace Breadboard

namespace Action

variable {α β : Type} {x : Action α} {f : α → Action β} {s : Surroundings} {c d e : Console}

theorem bind_apply (x : Action α) (f : α → Action β) (s : Surroundings) (c : Console) :
    (x >>= f) s c = match x s c with
      | (.ok a, d) => f a s d
      | (.error h, d) => (.error h, d) := rfl

theorem ask_eq (question : FileTree → Except FileError α) {answer : α}
    (h : question c.files = .ok answer) : ask question s c = (.ok answer, c) := by
  unfold ask
  rw [h]

/-! ## Endings up to what was said -/

/-- An action ends like this, whatever it says on the way. -/
def Ends (x : Action α) (s : Surroundings) (c : Console) (r : Except Halt α) (d : Console) : Prop :=
  ∃ messages, x s c = (r, { d with messages })

namespace Ends

theorem of_eq {r : Except Halt α} (h : x s c = (r, d)) : x.Ends s c r d := ⟨d.messages, h⟩

theorem eq_of_run {r r' : Except Halt α} (h : x.Ends s c r d) (hrun : x s c = (r', e)) :
    r' = r ∧ ∃ messages, e = { d with messages } := by
  obtain ⟨messages, hx⟩ := h
  cases hx.symm.trans hrun
  exact ⟨rfl, messages, rfl⟩

theorem tell (line : String) : (Action.tell line).Ends s c (.ok ()) c := ⟨_, rfl⟩

theorem log (lines : List LogLine) : (Action.log lines).Ends s c (.ok ()) c := ⟨_, rfl⟩

/-- One action after another. -/
theorem bind {a : α} {r : Except Halt β} (h : x.Ends s c (.ok a) d)
    (hf : ∀ messages, (f a).Ends s { d with messages } r e) : (x >>= f).Ends s c r e := by
  obtain ⟨messages, hx⟩ := h
  obtain ⟨messages', hfa⟩ := hf messages
  refine ⟨messages', ?_⟩
  rw [bind_apply, hx]
  exact hfa

theorem bind_error {halt : Halt} (h : x.Ends s c (.error halt) d) :
    (x >>= f).Ends s c (.error halt) d := by
  obtain ⟨messages, hx⟩ := h
  refine ⟨messages, ?_⟩
  rw [bind_apply, hx]

theorem ask {question : FileTree → Except FileError α} {answer : α}
    (h : question c.files = .ok answer) : (Action.ask question).Ends s c (.ok answer) c :=
  of_eq (ask_eq question h)

theorem ask_error {question : FileTree → Except FileError α} {fault : FileError}
    (h : question c.files = .error fault) :
    (Action.ask question).Ends s c (.error (.crash (.file fault))) c := by
  refine of_eq ?_
  unfold Action.ask
  rw [h]

theorem files : Action.files.Ends s c (.ok c.files) c := ⟨_, rfl⟩

theorem surroundings : Action.surroundings.Ends s c (.ok s) c := ⟨_, rfl⟩

theorem write {p : Path} {text : String} {written : FileTree}
    (h : c.files.write p text = .ok written) :
    (Action.write p text).Ends s c (.ok ()) { c with files := written } := by
  refine of_eq ?_
  unfold Action.write
  rw [h]

theorem write_error {p : Path} {text : String} {fault : FileError}
    (h : c.files.write p text = .error fault) :
    (Action.write p text).Ends s c (.error (.crash (.file fault))) c := by
  refine of_eq ?_
  unfold Action.write
  rw [h]

end Ends

theorem exists_of_bind_ok {b : β} (h : (x >>= f) s c = (.ok b, e)) :
    ∃ a d, x s c = (.ok a, d) ∧ f a s d = (.ok b, e) := by
  rw [bind_apply] at h
  cases hx : x s c with
  | mk r d =>
    rw [hx] at h
    cases r with
    | ok a => exact ⟨a, d, rfl, h⟩
    | error halt => cases h

/-- The ending of an action that gives a value or crashes. -/
def orCrash : Except Crash α → Except Halt α
  | .ok a => .ok a
  | .error e => .error (.crash e)

/-- What a simulation by a command comes to. -/
def simulated (components : List Component) (settings : Settings) (engine : Engine) :
    Except Crash SimulationReport :=
  ((Simulation.simulate components settings (Simulation.runner settings)
    { engine with cancelAfter := none }).result).mapError .simulation

theorem lift_eq (r : Except Simulation.Fault α) :
    lift r s c = (orCrash (r.mapError .simulation), c) := by
  cases r <;> rfl

/-- A simulation counts as a run of the engine if the circuit has a deck. -/
theorem simulate_ends (components : List Component) (settings : Settings) :
    (simulate components settings).Ends s c
      (orCrash (simulated components settings (s.engine c.runs)))
      { c with
        runs := c.runs + if (Deck.ofComponents components settings).isOk then 1 else 0 } := by
  have hruns (engine : Engine) : (Simulation.simulate components settings
      (Simulation.runner settings) engine).run.isSome =
        (Deck.ofComponents components settings).isOk := by
    unfold Simulation.simulate
    cases Deck.ofComponents components settings <;> rfl
  have hcount (b : Bool) (n : Nat) : (if b then n + 1 else n) = n + if b then 1 else 0 := by
    cases b <;> rfl
  unfold Ends simulate simulated
  simp only [hruns, lift_eq]
  rw [hcount]
  exact ⟨_, rfl⟩

end Action

end Breadboard
