import Breadboard.Engine
import Breadboard.Proofs.Decimal.Order
import Mathlib.Data.List.Basic

/-!
# Runs of the engine

A run takes one of six courses: the engine is not found, the deck cannot be written, the process
cannot be started, no float holds the time limit, the process is killed, or it ends by itself. Until
a process is killed or ends, each wait begins with the run not cancelled and time left. What a run
does, what it reports and which error escapes it is read off its course.
-/

namespace Breadboard

theorem RunEnd.success_iff {outcome : RunEnd} :
    outcome.success = true ↔ ∃ out, outcome = .exited 0 out := by
  cases outcome with
  | exited code printed =>
    show (code == 0) = true ↔ _
    rw [beq_iff_eq]
    constructor
    · rintro rfl
      exact ⟨printed, rfl⟩
    · rintro ⟨_, ⟨⟩⟩
      rfl
  | _ => simp [success]

theorem append_ne_empty {a : String} (h : a ≠ "") (b : String) : a ++ b ≠ "" :=
  fun hempty => h (String.append_eq_empty_iff.mp hempty).1

/-- A run that gave no result has an error text. -/
theorem RunEnd.error_ne_empty {outcome : RunEnd} (h : outcome.success = false) :
    outcome.error ≠ "" := by
  unfold error
  cases outcome with
  | notFound => decide
  | notWritten reason => exact append_ne_empty (a := "Failed to write deck: ") (by decide) _
  | notStarted reason => exact append_ne_empty (a := "Failed to start ngspice: ") (by decide) _
  | cancelled => decide
  | timedOut limit =>
    dsimp only
    exact append_ne_empty (append_ne_empty (by decide) _) _
  | exited code printed =>
    have hcode : code ≠ 0 := by
      rintro rfl
      cases h
    dsimp only
    rw [if_neg hcode]
    exact append_ne_empty (a := "ngspice exited with code ") (by decide) _

namespace Runner

/-! ## Waiting -/

variable {r : Runner} {e : Engine} {limit : Float} {waits : List Float}

/-- The waits for a process that does not end: each begins with the run not stopped, and is as long
as the time left allows. -/
def Timely (e : Engine) (limit : Float) (waits : List Float) : Prop :=
  ∀ i t, waits[i]? = some t →
    stop? e limit (waits.take i) = none ∧ t = nextWait (e.remaining limit (waits.take i))

theorem timely_nil (e : Engine) (limit : Float) : Timely e limit [] := by
  intro i t h
  cases h

theorem Timely.concat (h : Timely e limit waits) (hgo : stop? e limit waits = none) :
    Timely e limit (waits ++ [nextWait (e.remaining limit waits)]) := by
  intro i t hi
  rcases Nat.lt_or_ge i waits.length with hlt | hge
  · rw [List.getElem?_append_left hlt] at hi
    rw [List.take_append_of_le_length (Nat.le_of_lt hlt)]
    exact h i t hi
  · rw [List.getElem?_append_right hge, List.getElem?_singleton] at hi
    obtain ⟨hzero, ht⟩ := Option.ite_none_right_eq_some.mp hi
    obtain rfl : i = waits.length := by omega
    rw [List.take_left]
    exact ⟨hgo, (Option.some.inj ht).symm⟩

/-- Waiting ends in a kill once the run is stopped, or in the wait in which the process ends. -/
theorem wait_spec {made : List Float} (h : Timely e limit made) (hang : Nat) :
    ∃ waits, Timely e limit (made ++ waits) ∧
      ((waits.length = hang + 1 ∧ wait e limit hang made = (waits.map .wait, e.ended)) ∨
        waits.length ≤ hang ∧ ∃ reason, stop? e limit (made ++ waits) = some reason ∧
          wait e limit hang made =
            (waits.map .wait ++ [.kill, .wait killWait], e.killed reason)) := by
  have hnow : Timely e limit (made ++ []) := by rwa [List.append_nil]
  induction hang generalizing made with
  | zero =>
    unfold wait
    cases hstop : stop? e limit made with
    | some reason =>
      exact ⟨[], hnow, .inr ⟨Nat.le_refl 0, reason, by rwa [List.append_nil], rfl⟩⟩
    | none => exact ⟨_, h.concat hstop, .inl ⟨rfl, rfl⟩⟩
  | succ hang ih =>
    unfold wait
    cases hstop : stop? e limit made with
    | some reason =>
      exact ⟨[], hnow, .inr ⟨Nat.zero_le _, reason, by rwa [List.append_nil], rfl⟩⟩
    | none =>
      have hmade := h.concat hstop
      obtain ⟨waits, htimely, hend⟩ := ih hmade (by rwa [List.append_nil])
      rw [List.append_assoc, List.singleton_append] at htimely hend
      refine ⟨_, htimely, ?_⟩
      rcases hend with ⟨hlength, hwait⟩ | ⟨hlength, reason, hreason, hwait⟩
      · exact .inl ⟨congrArg Nat.succ hlength, by simp only [hwait]; rfl⟩
      · exact .inr ⟨Nat.succ_le_succ hlength, reason, hreason, by simp only [hwait]; rfl⟩

/-- A run is stopped because it was cancelled, or else because its time is over. -/
theorem stop?_cases {reason : RunEnd} (h : stop? e limit waits = some reason) :
    (reason = .cancelled ∧ e.cancelledAfter waits.length = true) ∨
      reason = .timedOut limit ∧ e.cancelledAfter waits.length = false ∧
        e.remaining limit waits ≤ 0.0 := by
  unfold stop? at h
  split at h
  · next hcancelled => exact .inl ⟨(Option.some.inj h).symm, hcancelled⟩
  · next hgo =>
    split at h
    · next hover =>
      exact .inr ⟨(Option.some.inj h).symm, Bool.eq_false_iff.mpr hgo, hover⟩
    · cases h

theorem stop?_eq_none_iff : stop? e limit waits = none ↔
    e.cancelledAfter waits.length = false ∧ ¬ e.remaining limit waits ≤ 0.0 := by
  unfold stop?
  cases e.cancelledAfter waits.length <;>
    by_cases hleft : e.remaining limit waits ≤ 0.0 <;> simp [hleft]

theorem not_cancelledAfter (h : e.cancelAfter = none) (made : Nat) :
    e.cancelledAfter made = false := by
  unfold Engine.cancelledAfter
  rw [h]

theorem nextWait_bounds {remaining : Float} (h : ¬ remaining ≤ 0.0) :
    0.0 < nextWait remaining ∧ nextWait remaining ≤ pollInterval := by
  unfold nextWait
  split
  · next hless => exact ⟨float_pos_of_lt hless h, float_le_of_lt hless⟩
  · exact ⟨by decide +kernel, by decide +kernel⟩

/-- Waits that began in time are positive, and no longer than the interval. -/
theorem Timely.poll (h : Timely e limit waits) {i : Nat} {t : Float} (hi : waits[i]? = some t) :
    e.cancelledAfter i = false ∧ ¬ e.remaining limit (waits.take i) ≤ 0.0 ∧
      0.0 < t ∧ t ≤ pollInterval := by
  obtain ⟨hgo, rfl⟩ := h i t hi
  have hlength : (waits.take i).length = i :=
    List.length_take_of_le (Nat.le_of_lt (List.getElem?_eq_some_iff.mp hi).1)
  rw [stop?_eq_none_iff, hlength] at hgo
  exact ⟨hgo.1, hgo.2, nextWait_bounds hgo.2⟩

/-! ## The courses of a run -/

/-- The engine is found, and nothing keeps it from being started on a deck. -/
structure Starts (r : Runner) (e : Engine) : Prop where
  found : r.find e ≠ none
  written : e.writeError = none
  started : e.startError = none

theorem starts_of_found {command : String} (hfind : r.find e = some command)
    (hwrite : e.writeError = none) (hstart : e.startError = none) : r.Starts e :=
  ⟨by rw [hfind]; exact Option.some_ne_none _, hwrite, hstart⟩

/-- What a run does before it waits. -/
def begun (command deck : String) : List RunEvent :=
  [.writeDeck deck, .start [command, "-b", "circuit.cir"]]

/-- A run whose process is killed after these waits. -/
def killedRun (e : Engine) (command deck : String) (waits : List Float) (reason : RunEnd) : Run :=
  inDirectory (begun command deck ++ (waits.map .wait ++ [.kill, .wait killWait]))
    (e.killed reason)

/-- A run whose process ends by itself in the last of these waits. -/
def endedRun (e : Engine) (command deck : String) (waits : List Float) : Run :=
  inDirectory (begun command deck ++ waits.map .wait) e.ended

/-- The courses that a run can take. -/
inductive Course (r : Runner) (e : Engine) (deck : String) : Run → Prop
  | notFound : r.find e = none → Course r e deck ⟨[], .ok .notFound⟩
  | notWritten {reason : String} : r.find e ≠ none → e.writeError = some reason →
      Course r e deck (inDirectory [] (.ok (.notWritten reason)))
  | notStarted {command reason : String} : r.find e = some command → e.writeError = none →
      e.startError = some reason →
      Course r e deck (inDirectory (begun command deck) (.ok (.notStarted reason)))
  | abandoned {command : String} : r.find e = some command → r.Starts e →
      r.timeout.seconds? = none →
      Course r e deck (inDirectory (begun command deck) (.error .limit))
  | killed {command : String} {limit : Float} {waits : List Float} {reason : RunEnd} :
      r.find e = some command → r.Starts e → r.timeout.seconds? = some limit →
      Timely e limit waits → waits.length ≤ e.hang → stop? e limit waits = some reason →
      Course r e deck (killedRun e command deck waits reason)
  | ended {command : String} {limit : Float} {waits : List Float} :
      r.find e = some command → r.Starts e → r.timeout.seconds? = some limit →
      Timely e limit waits → waits.length = e.hang + 1 →
      Course r e deck (endedRun e command deck waits)

theorem course_run (r : Runner) (e : Engine) (deck : String) : r.Course e deck (r.run e deck) := by
  unfold run
  cases hfind : r.find e with
  | none => exact .notFound hfind
  | some command =>
    cases hwrite : e.writeError with
    | some reason => exact .notWritten (by rw [hfind]; exact Option.some_ne_none _) hwrite
    | none =>
      cases hstart : e.startError with
      | some reason => exact .notStarted hfind hwrite hstart
      | none =>
        have hstarts := starts_of_found hfind hwrite hstart
        cases hlimit : r.timeout.seconds? with
        | none => exact .abandoned hfind hstarts hlimit
        | some limit =>
          obtain ⟨waits, htimely, h⟩ := wait_spec (timely_nil e limit) e.hang
          rw [List.nil_append] at htimely h
          dsimp only
          rcases h with ⟨hlength, hwait⟩ | ⟨hlength, reason, hstop, hwait⟩
          · rw [hwait]
            exact .ended hfind hstarts hlimit htimely hlength
          · rw [hwait]
            exact .killed hfind hstarts hlimit htimely hlength hstop

theorem run_of_prompt {command deck : String} (hfind : r.find e = some command)
    (hwrite : e.writeError = none) (hstart : e.startError = none)
    (hlimit : r.timeout.seconds? = some limit) (hhang : e.hang = 0)
    (hcancel : e.cancelAfter = none) (hleft : ¬ e.remaining limit [] ≤ 0.0) :
    r.run e deck = endedRun e command deck [nextWait (e.remaining limit [])] := by
  have hstop : stop? e limit [] = none :=
    stop?_eq_none_iff.mpr ⟨not_cancelledAfter hcancel 0, hleft⟩
  unfold run
  rw [hfind, hwrite, hstart, hlimit, hhang]
  simp only [wait, hstop]
  rfl

theorem outcome_of_prompt {command deck printed : String} (hfind : r.find e = some command)
    (hwrite : e.writeError = none) (hstart : e.startError = none)
    (hlimit : r.timeout.seconds? = some limit) (hhang : e.hang = 0)
    (hcancel : e.cancelAfter = none) (hleft : ¬ e.remaining limit [] ≤ 0.0)
    (htext : e.text = .ok printed) :
    (r.run e deck).outcome = .ok (.exited e.exitCode printed) := by
  rw [run_of_prompt hfind hwrite hstart hlimit hhang hcancel hleft]
  show e.ended = _
  unfold Engine.ended
  rw [htext]

/-! ## Errors that escape -/

/-- The errors that escape a run with a process, which is killed or not. No float holds the time
limit, or the output is collected and is no text. -/
inductive Raises (r : Runner) (e : Engine) (killed : Bool) : RunFault → Prop
  | limit (hstarts : r.Starts e) (h : r.timeout.seconds? = none) : Raises r e killed .limit
  | output {fault : Text.Utf8Error} (hstarts : r.Starts e) (hlimit : r.timeout.seconds? ≠ none)
      (h : e.text = .error fault) (hcollected : killed = true → e.survivesKill = false) :
      Raises r e killed (.output fault)

theorem not_raises {killed : Bool} {fault : RunFault} (h : ¬ r.Starts e) :
    ¬ r.Raises e killed fault := by
  rintro (⟨hstarts, -⟩ | ⟨hstarts, -⟩)
  · exact h hstarts
  · exact h hstarts

theorem ended_eq_error_iff {fault : RunFault} (hstarts : r.Starts e)
    (hlimit : r.timeout.seconds? = some limit) :
    e.ended = .error fault ↔ r.Raises e false fault := by
  have hsome : r.timeout.seconds? ≠ none := by rw [hlimit]; exact Option.some_ne_none _
  unfold Engine.ended
  constructor
  · intro h
    split at h
    · cases h
    · next htext =>
      cases h
      exact .output hstarts hsome htext nofun
  · rintro (⟨-, hnone⟩ | ⟨-, -, htext, -⟩)
    · exact absurd hnone hsome
    · rw [htext]

theorem killed_eq_error_iff {fault : RunFault} {reason : RunEnd} (hstarts : r.Starts e)
    (hlimit : r.timeout.seconds? = some limit) :
    e.killed reason = .error fault ↔ r.Raises e true fault := by
  have hsome : r.timeout.seconds? ≠ none := by rw [hlimit]; exact Option.some_ne_none _
  unfold Engine.killed
  constructor
  · intro h
    split at h
    · cases h
    · next hsurvives =>
      split at h
      · cases h
      · next htext =>
        cases h
        exact .output hstarts hsome htext fun _ => Bool.eq_false_iff.mpr hsurvives
  · rintro (⟨-, hnone⟩ | ⟨-, -, htext, hcollected⟩)
    · exact absurd hnone hsome
    · rw [if_neg (by rw [hcollected rfl]; exact Bool.false_ne_true), htext]

theorem eq_of_killed_eq_ok {reason ended : RunEnd} (h : e.killed reason = .ok ended) :
    ended = reason := by
  unfold Engine.killed at h
  split at h
  · exact (Except.ok.inj h).symm
  · split at h
    · exact (Except.ok.inj h).symm
    · cases h

theorem ended_eq_ok_iff {ended : RunEnd} :
    e.ended = .ok ended ↔ ∃ printed, e.text = .ok printed ∧ ended = .exited e.exitCode printed := by
  unfold Engine.ended
  cases e.text <;> simp [eq_comm]

end Runner

/-! ## What a run does and reports -/

namespace Run

/-- The waits before a kill, or all waits if there is none. -/
def polls (run : Run) : List Float :=
  (run.events.takeWhile (· ≠ .kill)).filterMap fun | .wait seconds => some seconds | _ => none

/-- The process ended in the wait after those it outlasts, and its code and output are reported. -/
def Ends (run : Run) (e : Engine) : Prop :=
  run.polls.length = e.hang + 1 ∧ run.outcome = e.ended

/-- What holds of a run, whatever the engine does. -/
structure Orderly (run : Run) (r : Runner) (e : Engine) : Prop where
  /-- The run gives an outcome unless no float holds the limit or the output is no text. -/
  raises : ∀ fault, run.outcome = .error fault ↔ r.Raises e run.killed fault
  /-- A success comes from a process that ended by itself with exit code zero. -/
  success : ∀ ended, run.outcome = .ok ended → ended.success = true →
    run.Ends e ∧ e.exitCode = 0 ∧ run.killed = false ∧ ended.error = ""
  failure : ∀ ended, run.outcome = .ok ended → ended.success = false → ended.error ≠ ""
  killed_iff : ∀ ended, run.outcome = .ok ended → (run.killed = true ↔
    ended = .cancelled ∨ ∃ limit, r.timeout.seconds? = some limit ∧ ended = .timedOut limit)
  /-- After the kill there is one more wait, and nothing is kept of the output. -/
  killed : run.killed = true → (∀ ended, run.outcome = .ok ended → ended.stdout = "") ∧ ∃ before,
    run.events = before ++ [.kill, .wait Runner.killWait, .removeDirectory] ∧ .kill ∉ before
  /-- No process is left running, unless no float holds the limit. -/
  started : e.startError = none → ∀ command, .start command ∈ run.events →
    run.killed = true ∨ run.Ends e ∨ run.outcome = .error .limit
  /-- A process that is left running is not even waited for. -/
  abandoned : run.outcome = .error .limit → run.killed = false ∧ run.waits = []
  /-- Before each wait the run was not cancelled and there was time left. -/
  polls : ∀ i t, run.polls[i]? = some t → ∃ limit, r.timeout.seconds? = some limit ∧
    e.cancelledAfter i = false ∧ ¬ e.remaining limit (run.polls.take i) ≤ 0.0 ∧
      0.0 < t ∧ t ≤ Runner.pollInterval
  /-- A directory that was made is removed last of all. -/
  directory : run.events = [] ∨ ∃ work,
    run.events = .makeDirectory :: work ++ [.removeDirectory] ∧
      .makeDirectory ∉ work ∧ .removeDirectory ∉ work

end Run

namespace Runner

variable {r : Runner} {e : Engine} {deck : String} {waits : List Float}

theorem polls_killedRun (e : Engine) (command deck : String) (waits : List Float)
    (reason : RunEnd) : (killedRun e command deck waits reason).polls = waits := by
  simp [killedRun, Run.polls, inDirectory, begun, List.takeWhile_append_of_pos,
    List.filterMap_map]

theorem waits_killedRun (e : Engine) (command deck : String) (waits : List Float)
    (reason : RunEnd) : (killedRun e command deck waits reason).waits = waits ++ [killWait] := by
  simp [killedRun, Run.waits, inDirectory, begun, List.filterMap_map]

theorem polls_endedRun (e : Engine) (command deck : String) (waits : List Float) :
    (endedRun e command deck waits).polls = waits := by
  simp [endedRun, Run.polls, inDirectory, begun, List.takeWhile_append_of_pos, List.filterMap_map]

theorem killed_killedRun (e : Engine) (command deck : String) (waits : List Float)
    (reason : RunEnd) : (killedRun e command deck waits reason).killed = true := by
  simp [killedRun, Run.killed, inDirectory, begun]

theorem killed_endedRun (e : Engine) (command deck : String) (waits : List Float) :
    (endedRun e command deck waits).killed = false := by
  simp [endedRun, Run.killed, inDirectory, begun]

/-- A run that ends without a process has nothing to answer for but its error text. -/
theorem orderly_of_no_process {run : Run} {ended : RunEnd} (hrun : run.outcome = .ok ended)
    (hstarts : ¬ r.Starts e) (hfailed : ended.success = false)
    (hcause : ended ≠ .cancelled ∧ ∀ limit, ended ≠ .timedOut limit)
    (hkilled : run.killed = false) (hpolls : run.polls = [])
    (hstart : e.startError = none → ∀ command, .start command ∉ run.events)
    (hdirectory : run.events = [] ∨ ∃ work,
      run.events = .makeDirectory :: work ++ [.removeDirectory] ∧
        .makeDirectory ∉ work ∧ .removeDirectory ∉ work) : run.Orderly r e where
  raises fault := iff_of_false (by rw [hrun]; nofun) (not_raises hstarts)
  success := by
    intro other hother hsuccess
    cases hrun.symm.trans hother
    exact absurd (hfailed.symm.trans hsuccess) Bool.false_ne_true
  failure _ _ h := RunEnd.error_ne_empty h
  killed_iff := by
    intro other hother
    cases hrun.symm.trans hother
    refine iff_of_false (by rw [hkilled]; exact Bool.false_ne_true) ?_
    rintro (hcancelled | ⟨limit, -, htimedOut⟩)
    · exact hcause.1 hcancelled
    · exact hcause.2 limit htimedOut
  killed h := absurd (hkilled.symm.trans h) Bool.false_ne_true
  started hnone command hcommand := absurd hcommand (hstart hnone command)
  abandoned h := by cases hrun.symm.trans h
  polls i t h := by
    rw [hpolls] at h
    cases h
  directory := hdirectory

/-- A process whose time limit no float holds is started and left to itself. -/
theorem orderly_of_abandoned {command : String} (hstarts : r.Starts e)
    (hlimit : r.timeout.seconds? = none) :
    (inDirectory (begun command deck) (.error .limit)).Orderly r e := by
  have hkilled : (inDirectory (begun command deck) (.error .limit)).killed = false := by
    simp [Run.killed, inDirectory, begun]
  exact {
    raises := by
      intro fault
      constructor
      · rintro ⟨⟩
        exact .limit hstarts hlimit
      · rintro (_ | ⟨-, hsome, -⟩)
        · rfl
        · exact absurd hlimit hsome
    success := fun _ => nofun
    failure := fun _ => nofun
    killed_iff := fun _ => nofun
    killed := fun h => absurd (hkilled.symm.trans h) Bool.false_ne_true
    started := fun _ _ _ => .inr (.inr rfl)
    abandoned := fun _ => ⟨hkilled, rfl⟩
    polls := fun _ _ => nofun
    directory := .inr ⟨begun command deck, rfl, by simp [begun], by simp [begun]⟩ }

/-- A killed run fails with nothing printed, for one of the two reasons to kill. -/
theorem orderly_killedRun {command : String} {limit : Float} {waits : List Float} {reason : RunEnd}
    (hstarts : r.Starts e) (hlimit : r.timeout.seconds? = some limit)
    (htimely : Timely e limit waits) (hstop : stop? e limit waits = some reason) :
    (killedRun e command deck waits reason).Orderly r e := by
  have hkilled := killed_killedRun e command deck waits reason
  have hcause : reason = .cancelled ∨
      ∃ limit, r.timeout.seconds? = some limit ∧ reason = .timedOut limit := by
    rcases stop?_cases hstop with ⟨hcancelled, -⟩ | ⟨htimedOut, -⟩
    · exact .inl hcancelled
    · exact .inr ⟨limit, hlimit, htimedOut⟩
  have hfailed : reason.success = false ∧ reason.stdout = "" := by
    rcases hcause with rfl | ⟨_, -, rfl⟩ <;> exact ⟨rfl, rfl⟩
  exact {
    raises := fun fault => by rw [hkilled]; exact killed_eq_error_iff hstarts hlimit
    success := fun ended hended h => by
      rw [eq_of_killed_eq_ok hended] at h
      exact absurd (hfailed.1.symm.trans h) Bool.false_ne_true
    failure := fun _ _ h => RunEnd.error_ne_empty h
    killed_iff := fun ended hended => by
      rw [eq_of_killed_eq_ok hended]
      exact iff_of_true hkilled hcause
    killed := fun _ => ⟨fun ended hended => by rw [eq_of_killed_eq_ok hended]; exact hfailed.2,
      .makeDirectory :: begun command deck ++ waits.map .wait,
      by simp [killedRun, inDirectory], by simp [begun]⟩
    started := fun _ _ _ => .inl hkilled
    abandoned := fun h => by
      rcases (killed_eq_error_iff hstarts hlimit).mp h with ⟨-, hnone⟩
      exact absurd (hlimit.symm.trans hnone) nofun
    polls := by
      rw [polls_killedRun]
      exact fun i t hi => ⟨limit, hlimit, htimely.poll hi⟩
    directory := .inr ⟨_, rfl, by simp [begun], by simp [begun]⟩ }

/-- A process that ends by itself succeeds by its exit code. -/
theorem orderly_endedRun {command : String} {limit : Float} {waits : List Float}
    (hstarts : r.Starts e) (hlimit : r.timeout.seconds? = some limit)
    (htimely : Timely e limit waits) (hlength : waits.length = e.hang + 1) :
    (endedRun e command deck waits).Orderly r e := by
  have hkilled := killed_endedRun e command deck waits
  have hends : (endedRun e command deck waits).Ends e := ⟨by rw [polls_endedRun, hlength], rfl⟩
  exact {
    raises := fun fault => by rw [hkilled]; exact ended_eq_error_iff hstarts hlimit
    success := fun ended hended h => by
      obtain ⟨printed, -, rfl⟩ := ended_eq_ok_iff.mp hended
      have hcode : e.exitCode = 0 := beq_iff_eq.mp h
      exact ⟨hends, hcode, hkilled, if_pos hcode⟩
    failure := fun _ _ h => RunEnd.error_ne_empty h
    killed_iff := fun ended hended => by
      obtain ⟨printed, -, rfl⟩ := ended_eq_ok_iff.mp hended
      rw [hkilled]
      simp
    killed := fun h => absurd (hkilled.symm.trans h) Bool.false_ne_true
    started := fun _ _ _ => .inr (.inl hends)
    abandoned := fun h => by
      rcases (ended_eq_error_iff hstarts hlimit).mp h with ⟨-, hnone⟩
      exact absurd (hlimit.symm.trans hnone) nofun
    polls := by
      rw [polls_endedRun]
      exact fun i t hi => ⟨limit, hlimit, htimely.poll hi⟩
    directory := .inr ⟨_, rfl, by simp [begun], by simp [begun]⟩ }

theorem Course.orderly {run : Run} (h : r.Course e deck run) : run.Orderly r e := by
  cases h with
  | notFound hfind =>
    exact orderly_of_no_process rfl (fun h => h.found hfind) rfl ⟨nofun, nofun⟩ rfl rfl
      (fun _ _ => nofun) (.inl rfl)
  | notWritten _ hwrite =>
    exact orderly_of_no_process rfl (fun h => absurd (h.written.symm.trans hwrite) nofun) rfl
      ⟨nofun, nofun⟩ (by simp [Run.killed, inDirectory]) rfl (fun _ _ => by simp [inDirectory])
      (.inr ⟨[], rfl, by simp, by simp⟩)
  | @notStarted command reason hfind hwrite hstart =>
    exact orderly_of_no_process rfl (fun h => absurd (h.started.symm.trans hstart) nofun) rfl
      ⟨nofun, nofun⟩ (by simp [Run.killed, inDirectory, begun]) rfl
      (fun hnone => absurd (hstart.symm.trans hnone) nofun)
      (.inr ⟨begun command deck, rfl, by simp [begun], by simp [begun]⟩)
  | abandoned _ hstarts hlimit => exact orderly_of_abandoned hstarts hlimit
  | killed _ hstarts hlimit htimely _ hstop =>
    exact orderly_killedRun hstarts hlimit htimely hstop
  | ended _ hstarts hlimit htimely hlength =>
    exact orderly_endedRun hstarts hlimit htimely hlength

theorem run_eq_error_iff {fault : RunFault} :
    (r.run e deck).outcome = .error fault ↔ r.Raises e (r.run e deck).killed fault :=
  (r.course_run e deck).orderly.raises fault

end Runner

end Breadboard
