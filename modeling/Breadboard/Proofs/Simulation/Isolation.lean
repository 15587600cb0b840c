import Breadboard.Proofs.Simulation.Shape

/-!
# Simulations one after another

A runner that is used again starts its search from the command that it found last. This is all that
one simulation leaves for the next, so simulations one after another give what each gives by itself
exactly when every such search finds what a fresh one finds.
-/

namespace Breadboard

namespace Runner

variable {r : Runner} {e : Engine} {deck : String}

theorem run_congr {r' : Runner} (htime : r'.timeout = r.timeout) (hfind : r'.find e = r.find e) :
    r'.run e deck = r.run e deck := by
  unfold run
  rw [hfind, htime]

theorem located_congr {r' : Runner} (htime : r'.timeout = r.timeout)
    (hfind : r'.find e = r.find e) : r'.located e = r.located e := by
  unfold located
  rw [hfind, ← htime]

/-- A command that is there is found. -/
theorem find_of_installed {command : String} (hcommand : r.command = some command)
    (hne : command ≠ "") (h : command ∈ e.existing) : r.find e = some command := by
  have hkept : (some command).filter (fun c => !c.isEmpty && e.existing.contains c) =
      some command := by
    rw [Option.filter_some, if_pos]
    rw [Bool.and_eq_true, Bool.not_eq_true', List.contains_iff_mem]
    exact ⟨by rw [← Bool.not_eq_true, String.isEmpty_iff]; exact hne, h⟩
  unfold find
  rw [hcommand, hkept, Option.some_or]

end Runner

namespace Simulation

variable {components : List Component} {s : Settings}

/-- Simulations of one circuit one after another, each in surroundings of its own and with the
runner that the one before it left. -/
def session (components : List Component) (s : Settings) : Runner → List Engine → List Outcome
  | _, [] => []
  | r, e :: rest =>
    let outcome := simulate components s r e
    outcome :: session components s outcome.runner rest

theorem simulate_of_conflict {conflict : JunctionConflict}
    (h : Deck.ofComponents components s = .error conflict) (r : Runner) (e : Engine) :
    simulate components s r e = ⟨.ok (conflictResult conflict), none, r⟩ := by
  unfold simulate
  rw [h]

theorem simulate_of_deck {deck : Deck} (h : Deck.ofComponents components s = .ok deck)
    (r : Runner) (e : Engine) : simulate components s r e =
      ⟨conclude components s deck (r.run e deck.text), some (r.run e deck.text), r.located e⟩ := by
  unfold simulate
  rw [h]

/-- Two simulations of a circuit with a deck are the same exactly when they find the same
command. -/
theorem simulate_eq_iff {deck : Deck} (h : Deck.ofComponents components s = .ok deck)
    {r r' : Runner} (htime : r'.timeout = r.timeout) (e : Engine) :
    simulate components s r' e = simulate components s r e ↔ r'.find e = r.find e := by
  rw [simulate_of_deck h, simulate_of_deck h]
  constructor
  · intro heq
    exact congrArg (fun outcome => outcome.runner.command) heq
  · intro hfind
    rw [Runner.run_congr htime hfind, Runner.located_congr htime hfind]

theorem session_of_conflict {conflict : JunctionConflict}
    (h : Deck.ofComponents components s = .error conflict) (r : Runner) (engines : List Engine) :
    session components s r engines = engines.map (simulate components s r) := by
  induction engines with
  | nil => rfl
  | cons e rest ih =>
    rw [session, List.map_cons, simulate_of_conflict h]
    exact congrArg _ ih

/-- The induction over a session goes from runner to runner: the first search has to find what a
fresh one finds, and then the next begins where a fresh search has ended. -/
theorem session_eq_map_iff {deck : Deck} (h : Deck.ofComponents components s = .ok deck)
    {r r' : Runner} (htime : r'.timeout = r.timeout) (e : Engine) (rest : List Engine) :
    session components s r' (e :: rest) = (e :: rest).map (simulate components s r) ↔
      r'.find e = r.find e ∧
        (e :: rest).IsChain fun before now => (r.located before).find now = r.find now := by
  induction rest generalizing r' e with
  | nil => simp [session, simulate_eq_iff h htime]
  | cons next rest ih =>
    rw [session, List.map_cons, List.cons.injEq, simulate_eq_iff h htime, List.isChain_cons_cons]
    refine and_congr_right fun hfind => ?_
    have hrunner : (simulate components s r' e).runner = r.located e := by
      rw [simulate_of_deck h, Runner.located_congr htime hfind]
    rw [hrunner]
    exact ih (show (r.located e).timeout = r.timeout from rfl) next

/-- **Simulations one after another give what each gives by itself exactly when no search is led
astray by the one before it.** The outcomes are compared as wholes: the result, the run of the
engine with the command that it started, and the runner. A circuit without a deck leaves nothing
behind; of any other the session is as isolated as its searches, each of which has to find from the
command that was found last what it finds from the one in the settings. -/
theorem session_eq_map_simulate_iff (components : List Component) (s : Settings)
    (engines : List Engine) :
    session components s (runner s) engines = engines.map (simulate components s (runner s)) ↔
      (∃ conflict, Deck.ofComponents components s = .error conflict) ∨
      engines.IsChain fun before now =>
        ((runner s).located before).find now = (runner s).find now := by
  cases hdeck : Deck.ofComponents components s with
  | error conflict =>
    exact iff_of_true (session_of_conflict hdeck _ _) (.inl ⟨conflict, rfl⟩)
  | ok deck =>
    have hno : ¬ ∃ conflict, (.ok deck : Except JunctionConflict Deck) = .error conflict := by
      rintro ⟨_, ⟨⟩⟩
    rw [or_iff_right hno]
    cases engines with
    | nil => simp [session]
    | cons e rest =>
      rw [session_eq_map_iff hdeck rfl, and_iff_right rfl]

/-- A command of the settings that is there throughout is the one that is used, and no simulation
bears on another. -/
theorem session_of_installed {command : String} {engines : List Engine}
    (hcommand : s.enginePath = some command) (hne : command ≠ "")
    (h : ∀ e ∈ engines, command ∈ e.existing) :
    session components s (runner s) engines = engines.map (simulate components s (runner s)) ∧
      ∀ e ∈ engines, (runner s).find e = some command := by
  have hfind : ∀ e ∈ engines, (runner s).find e = some command := fun e he =>
    Runner.find_of_installed hcommand hne (h e he)
  refine ⟨(session_eq_map_simulate_iff components s engines).mpr (.inr ?_), hfind⟩
  rw [List.isChain_iff_getElem]
  intro i hi
  have hbefore := hfind engines[i] (List.getElem_mem _)
  rw [hfind engines[i + 1] (List.getElem_mem _)]
  exact Runner.find_of_installed hbefore hne (h _ (List.getElem_mem _))

/-! ## A command that is lost -/

/-- Settings with a command of their own. -/
def ownCommand : Settings := { Settings.defaults with enginePath := some "/opt/ngspice" }

/-- The command of the settings is not there yet, and another is found. -/
def elsewhere : Engine where
  onPath := some "/usr/bin/ngspice"
  printed := Text.encodeUtf8 "v(1) = 1.0e+00\n".toList

/-- The command of the settings is there, and it is the only one. -/
def installed : Engine where
  existing := ["/opt/ngspice"]
  printed := Text.encodeUtf8 "v(1) = 1.0e+00\n".toList

/-- The search forgets the command of the settings once it has found another: a later simulation
does not find the command though it is there, and fails where a fresh one succeeds. -/
theorem session_forgets_command :
    (runner ownCommand).find installed = some "/opt/ngspice" ∧
    (session [] ownCommand (runner ownCommand) [elsewhere, installed]).map
        (fun outcome => outcome.run.map (·.outcome)) =
      [some (.ok (.exited 0 "v(1) = 1.0e+00\n")), some (.ok .notFound)] ∧
    (session [] ownCommand (runner ownCommand) [elsewhere, installed]).map
        (fun outcome => outcome.result.toOption.map (·.success)) = [some true, some false] ∧
    ([elsewhere, installed].map (simulate [] ownCommand (runner ownCommand))).map
        (fun outcome => outcome.result.toOption.map (·.success)) = [some true, some true] := by
  decide +kernel

end Simulation

end Breadboard
