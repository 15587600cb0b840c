import Breadboard.Diagnosis
import Breadboard.Proofs.Decimal.Printed
import Breadboard.Proofs.Engine.Runs
import Breadboard.Proofs.Text.Phrases

/-!
# Causes of failed runs

A diagnosis is made from the words of an error. Of the errors that a run can end with, all but one
hold the phrases of their own cause and no others, whatever the engine printed. The one is the
error about a deck that cannot be written, for it quotes the system: the diagnosis is right exactly
when the quoted reason holds no such phrase.
-/

namespace Breadboard

open Text

/-! ## Diagnoses by phrases -/

namespace Category

variable {error printed s : String} {c : Category}

theorem find?_eq_none_iff {phrases : List (String × Category)} :
    find? phrases s = none ↔ ∀ p ∈ phrases, holdsWord p.1 s.toList = false := by
  unfold find?
  rw [Option.map_eq_none_iff, List.find?_eq_none]
  simp only [Bool.not_eq_true]

theorem mem_of_find? {phrases : List (String × Category)} (h : find? phrases s = some c) :
    c ∈ phrases.map (·.2) := by
  obtain ⟨p, hp, rfl⟩ := Option.map_eq_some_iff.mp h
  exact List.mem_map_of_mem (List.mem_of_find?_eq_some hp)

/-- The causes that lie in the run and not in the circuit. -/
def ofRuns : List Category := [.executableNotFound, .timeout, .cancelled]

theorem classify_of_find? (h : find? runPhrases error = some c) : classify error printed = c := by
  unfold classify
  rw [h]
  rfl

/-- Without a phrase about the run nothing that was printed makes up for it. -/
theorem classify_of_find?_none (h : find? runPhrases error = none) :
    classify error printed ∉ ofRuns := by
  have hengine : ∀ c ∈ enginePhrases.map (·.2), c ∉ ofRuns := by decide
  unfold classify
  rw [h, Option.none_or]
  cases hfind : (find? enginePhrases error).or (find? enginePhrases printed) with
  | none => decide
  | some c =>
    refine hengine c ?_
    rcases Option.or_eq_some_iff.mp hfind with herror | ⟨-, hprinted⟩
    · exact mem_of_find? herror
    · exact mem_of_find? hprinted

theorem classify_mem_ofRuns_iff :
    classify error printed ∈ ofRuns ↔ find? runPhrases error ≠ none := by
  constructor
  · intro hmem hnone
    exact classify_of_find?_none hnone hmem
  · intro hsome
    obtain ⟨c, hc⟩ := Option.ne_none_iff_exists'.mp hsome
    have hruns : ∀ c ∈ runPhrases.map (·.2), c ∈ ofRuns := by decide +kernel
    rw [classify_of_find? hc]
    exact hruns c (mem_of_find? hc)

end Category

/-! ## The words of errors -/

/-- Letters of the phrases that the characters of numbers do not read as. -/
def phraseLetters : List Char := ['a', 'b', 'f', 'm', 'r']

theorem lacks_of_isNumeric {p : Char} (hp : p ∈ phraseLetters) {cs : List Char}
    (h : ∀ c ∈ cs, IsNumeric c) : lacks p cs := by
  have hdecimal : ∀ p ∈ phraseLetters, isDecimal p = false :=
    List.all_iff_forall_prop.mp (by decide)
  have hmarks : ∀ p ∈ phraseLetters, lacks p ['+', '-', '.', 'e', 'E'] :=
    List.all_iff_forall_prop.mp (by decide)
  refine lacks_iff.mpr fun c hc => ?_
  rcases h c hc with hdigit | hmark
  · exact Table.foldsTo_of_isDecimal (isDecimal_of_isDigit hdigit) (hdecimal p hp)
  · exact lacks_iff.mp (hmarks p hp) c hmark

theorem isNumeric_toString (k : Int) : ∀ c ∈ (toString k).toList, IsNumeric c := by
  have hdigits (n : Nat) : ∀ c ∈ (Nat.repr n).toList, IsNumeric c := by
    intro c hc
    rw [Nat.toList_repr] at hc
    exact .inl (Nat.isDigit_of_mem_toDigits (by decide) (by decide) hc)
  cases k with
  | ofNat n => exact hdigits n
  | negSucc n =>
    have hminus : toString (Int.negSucc n) = "-" ++ Nat.repr (n + 1) := rfl
    intro c hc
    rw [hminus, String.toList_append] at hc
    rcases List.mem_append.mp hc with hsign | hrest
    · exact .inr (by rw [List.mem_singleton.mp hsign]; decide)
    · exact hdigits _ c hrest

/-- A rounded number is written without the letters `b` and `r`, also if it is not finite. -/
theorem lacks_general {p : Char} (hp : p ∈ ['b', 'r']) (f : Float) (digits : Nat) :
    lacks p (Real.general f digits).toList := by
  unfold Real.general
  split
  · obtain ⟨t, htext, -⟩ :=
      Decimal.writes_layOut (.general digits) (Decimal.significant f digits)
    have hletters : ∀ p ∈ ['b', 'r'], p ∈ phraseLetters := List.all_iff_forall_prop.mp (by decide)
    rw [String.toList_ofList, htext]
    exact lacks_of_isNumeric (hletters p hp) t.isNumeric_text
  · have hnames : ∀ p ∈ ['b', 'r'],
        lacks p "nan".toList ∧ lacks p "-inf".toList ∧ lacks p "inf".toList :=
      List.all_iff_forall_prop.mp (by decide)
    obtain ⟨hnan, hminus, hplus⟩ := hnames p hp
    unfold Real.special
    split
    · exact hnan
    · split
      · exact hminus
      · exact hplus

namespace RunEnd

open Category

theorem find?_notFound : find? runPhrases notFound.error = some .executableNotFound := by decide

theorem find?_cancelled : find? runPhrases cancelled.error = some .cancelled := by decide

theorem find?_notStarted (reason : String) :
    find? runPhrases (notStarted reason).error = some .executableNotFound := by
  have herror : (notStarted reason).error = "Failed to start ngspice: " ++ reason := rfl
  have hstart : holdsWord "failed to start" (notStarted reason).error.toList := by
    rw [herror, String.toList_append]
    exact holdsWord_append_left (by decide) _
  unfold find? runPhrases
  rw [List.find?_cons]
  split
  · rfl
  · rw [List.find?_cons, hstart]
    rfl

/-- The phrases that come before the one for a timeout have letters that its error lacks. -/
theorem find?_timedOut (limit : Float) :
    find? runPhrases (timedOut limit).error = some .timeout := by
  have herror : (timedOut limit).error.toList =
      "Simulation timed out (>".toList ++ (Real.general limit 6).toList ++ " seconds)".toList := by
    have happend : (timedOut limit).error =
        "Simulation timed out (>" ++ Real.general limit 6 ++ " seconds)" := rfl
    rw [happend, String.toList_append, String.toList_append]
  have hfixed : ∀ p ∈ ['b', 'r'],
      lacks p "Simulation timed out (>".toList ∧ lacks p " seconds)".toList :=
    List.all_iff_forall_prop.mp (by decide)
  have hlacks : ∀ p ∈ ['b', 'r'], lacks p (timedOut limit).error.toList := by
    intro p hp
    rw [herror, lacks_append, lacks_append, (hfixed p hp).1, (hfixed p hp).2, lacks_general hp]
    rfl
  have hfound : holdsWord "executable not found" (timedOut limit).error.toList = false :=
    holdsWord_of_lacks (by decide) (hlacks 'b' (by decide))
  have hstart : holdsWord "failed to start" (timedOut limit).error.toList = false :=
    holdsWord_of_lacks (by decide) (hlacks 'r' (by decide))
  have htime : holdsWord "timed out" (timedOut limit).error.toList := by
    rw [herror, List.append_assoc]
    exact holdsWord_append_left (by decide) _
  simp only [find?, runPhrases, List.find?_cons, hfound, hstart, htime, Option.map_some]

/-- Each phrase has a letter that the error about an exit code lacks. -/
theorem find?_exited (code : Int) (printed : String) :
    find? runPhrases (exited code printed).error = none := by
  have hphrases : ∀ q ∈ runPhrases, phraseLetters.any fun p =>
      q.1.toList.contains p && lacks p "ngspice exited with code ".toList :=
    List.all_iff_forall_prop.mp (by decide)
  rw [find?_eq_none_iff]
  intro q hq
  obtain ⟨p, hp, hfits⟩ := List.any_eq_true.mp (hphrases q hq)
  obtain ⟨hword, hfixed⟩ := Bool.and_eq_true_iff.mp hfits
  rw [List.contains_iff_mem] at hword
  refine holdsWord_of_lacks hword ?_
  by_cases hcode : code = 0
  · have hempty : (exited code printed).error = "" := if_pos hcode
    rw [hempty]
    rfl
  · have herror : (exited code printed).error = "ngspice exited with code " ++ toString code :=
      if_neg hcode
    rw [herror, String.toList_append, lacks_append, hfixed,
      lacks_of_isNumeric hp (isNumeric_toString code)]
    rfl

/-- The phrases in an error about the deck are those of the reason that it quotes: none begins in
the words before it. -/
theorem find?_notWritten (reason : String) :
    find? runPhrases (notWritten reason).error = find? runPhrases reason := by
  have herror : (notWritten reason).error = "Failed to write deck: " ++ reason := rfl
  have hclash : ∀ q ∈ runPhrases,
      clashesThroughout q.1.toList "Failed to write deck: ".toList := by
    decide
  unfold find?
  rw [herror, String.toList_append]
  exact congrArg (Option.map (·.2)) (List.find?_congr fun q hq => holdsWord_append (hclash q hq) _)

end RunEnd

/-! ## What happened in a run -/

namespace Run

/-- No engine was found, or its process could not be started. -/
def LacksEngine (run : Run) (r : Runner) (e : Engine) : Prop :=
  r.find e = none ∨ e.startError ≠ none ∧ ∃ command, .start command ∈ run.events

/-- The process was killed because the run was cancelled before the next wait. -/
def WasCancelled (run : Run) (e : Engine) : Prop :=
  run.killed = true ∧ e.cancelledAfter run.polls.length = true

/-- The process was killed because no time was left for another wait. -/
def Overran (run : Run) (r : Runner) (e : Engine) : Prop :=
  run.killed = true ∧ e.cancelledAfter run.polls.length = false ∧
    ∃ limit, r.timeout.seconds? = some limit ∧ e.remaining limit run.polls ≤ 0.0

/-- A diagnosis that names each cause in the run exactly when it is the cause. -/
structure Diagnosed (run : Run) (r : Runner) (e : Engine) (c : Category) : Prop where
  engine : c = .executableNotFound ↔ run.LacksEngine r e
  timeout : c = .timeout ↔ run.Overran r e
  cancelled : c = .cancelled ↔ run.WasCancelled e

variable {run : Run} {r : Runner} {e : Engine} {c : Category}

theorem diagnosed_iff_of_none (hengine : ¬ run.LacksEngine r e) (hkilled : run.killed = false) :
    run.Diagnosed r e c ↔ c ∉ Category.ofRuns := by
  have hcancelled : ¬ run.WasCancelled e := fun h => by
    rw [h.1] at hkilled
    cases hkilled
  have htimeout : ¬ run.Overran r e := fun h => by
    rw [h.1] at hkilled
    cases hkilled
  unfold Category.ofRuns
  simp only [List.mem_cons, List.not_mem_nil, or_false, not_or]
  constructor
  · intro h
    exact ⟨mt h.engine.mp hengine, mt h.timeout.mp htimeout, mt h.cancelled.mp hcancelled⟩
  · rintro ⟨hc₁, hc₂, hc₃⟩
    exact ⟨iff_of_false hc₁ hengine, iff_of_false hc₂ htimeout, iff_of_false hc₃ hcancelled⟩

end Run

namespace Runner

variable {r : Runner} {e : Engine} {deck : String}

theorem Starts.not_lacksEngine (h : r.Starts e) (run : Run) : ¬ run.LacksEngine r e := by
  rintro (hnone | ⟨hsome, -⟩)
  · exact h.found hnone
  · exact hsome h.started

/-- A killed run is diagnosed rightly: its error holds the phrase of its cause. -/
theorem diagnosed_killedRun {command : String} {limit : Float} {waits : List Float}
    {reason : RunEnd} (hstarts : r.Starts e) (hlimit : r.timeout.seconds? = some limit)
    (hstop : stop? e limit waits = some reason) (printed : String) :
    (killedRun e command deck waits reason).Diagnosed r e
      (Category.classify reason.error printed) := by
  have hkilled := killed_killedRun e command deck waits reason
  have hengine := hstarts.not_lacksEngine (killedRun e command deck waits reason)
  rcases stop?_cases hstop with ⟨rfl, hcancelled⟩ | ⟨rfl, hgo, hover⟩
  · rw [Category.classify_of_find? RunEnd.find?_cancelled]
    refine ⟨iff_of_false nofun hengine, iff_of_false nofun ?_, iff_of_true rfl ⟨hkilled, ?_⟩⟩
    · rintro ⟨-, hgo, -⟩
      rw [polls_killedRun, hcancelled] at hgo
      cases hgo
    · rwa [polls_killedRun]
  · rw [Category.classify_of_find? (RunEnd.find?_timedOut _)]
    refine ⟨iff_of_false nofun hengine, iff_of_true rfl ⟨hkilled, ?_, limit, hlimit, ?_⟩,
      iff_of_false nofun ?_⟩
    · rwa [polls_killedRun]
    · rwa [polls_killedRun]
    · rintro ⟨-, hcancelled⟩
      rw [polls_killedRun, hgo] at hcancelled
      cases hcancelled

theorem diagnosed_of_lacksEngine {run : Run} {error printed : String}
    (hengine : run.LacksEngine r e) (hkilled : run.killed = false)
    (hfind : Category.find? Category.runPhrases error = some .executableNotFound) :
    run.Diagnosed r e (Category.classify error printed) := by
  rw [Category.classify_of_find? hfind]
  refine ⟨iff_of_true rfl hengine, iff_of_false nofun ?_, iff_of_false nofun ?_⟩
  · rintro ⟨h, -⟩
    rw [hkilled] at h
    cases h
  · rintro ⟨h, -⟩
    rw [hkilled] at h
    cases h

/-- **A diagnosis names the cause in the run, unless the deck could not be written for a reason
that sounds like another.** Whatever the engine does and prints and whatever the system says, the
diagnosis of a run that gives an outcome is a missing engine exactly when none was found or its
process could not be started, a timeout exactly when the process was killed because its time was
over, and a cancelled run exactly when it was killed for that; the one exception is a deck that
could not be written for a reason that holds one of the phrases for these causes. -/
theorem diagnosed_run_iff (r : Runner) (e : Engine) (deck : String) :
    (∀ ended, (r.run e deck).outcome = .ok ended →
        (r.run e deck).Diagnosed r e (Category.classify ended.error ended.stdout)) ↔
      ∀ reason, r.find e ≠ none → e.writeError = some reason →
        ∀ p ∈ Category.runPhrases, holdsWord p.1 reason.toList = false := by
  have hcourse := r.course_run e deck
  generalize r.run e deck = run at hcourse ⊢
  -- A run with a process, or one that was tried to start, had its deck written.
  have hwritten (hnone : e.writeError = none) : ∀ reason, r.find e ≠ none →
      e.writeError = some reason → ∀ p ∈ Category.runPhrases, holdsWord p.1 reason.toList = false :=
    fun reason _ hsome => absurd (hsome.symm.trans hnone) (Option.some_ne_none reason)
  cases hcourse with
  | notFound hfind =>
    refine iff_of_true ?_ fun _ hsome => absurd hfind hsome
    rintro _ ⟨⟩
    exact diagnosed_of_lacksEngine (.inl hfind) rfl RunEnd.find?_notFound
  | @notWritten reason hfind hwrite =>
    have hengine : ¬ (inDirectory [] (.ok (.notWritten reason))).LacksEngine r e := by
      rintro (hnone | ⟨-, command, hcommand⟩)
      · exact hfind hnone
      · simp [inDirectory] at hcommand
    have hdiagnosed : (inDirectory [] (.ok (.notWritten reason))).Diagnosed r e
        (Category.classify (RunEnd.notWritten reason).error (RunEnd.notWritten reason).stdout) ↔
          ∀ p ∈ Category.runPhrases, holdsWord p.1 reason.toList = false := by
      rw [Run.diagnosed_iff_of_none hengine rfl, Category.classify_mem_ofRuns_iff, not_not,
        RunEnd.find?_notWritten, Category.find?_eq_none_iff]
    constructor
    · intro h other _ hother
      cases hwrite.symm.trans hother
      exact hdiagnosed.mp (h _ rfl)
    · rintro h _ ⟨⟩
      exact hdiagnosed.mpr (h reason hfind hwrite)
  | @notStarted command reason hfind hwrite hstart =>
    refine iff_of_true ?_ (hwritten hwrite)
    rintro _ ⟨⟩
    have hengine : e.startError ≠ none ∧ ∃ command', .start command' ∈
        (inDirectory (begun command deck) (.ok (.notStarted reason))).events :=
      ⟨by rw [hstart]; exact Option.some_ne_none _, [command, "-b", "circuit.cir"],
        by simp [inDirectory, begun]⟩
    exact diagnosed_of_lacksEngine (.inr hengine)
      (by simp [Run.killed, inDirectory, begun]) (RunEnd.find?_notStarted reason)
  | abandoned _ hstarts =>
    refine iff_of_true (fun ended hended => ?_) (hwritten hstarts.written)
    cases hended
  | @killed command limit waits reason _ hstarts hlimit _ _ hstop =>
    refine iff_of_true (fun ended hended => ?_) (hwritten hstarts.written)
    rw [eq_of_killed_eq_ok hended]
    exact diagnosed_killedRun hstarts hlimit hstop _
  | @ended command limit waits _ hstarts =>
    refine iff_of_true (fun ended hended => ?_) (hwritten hstarts.written)
    obtain ⟨printed, -, rfl⟩ := ended_eq_ok_iff.mp hended
    rw [Run.diagnosed_iff_of_none (hstarts.not_lacksEngine _)
      (killed_endedRun e command deck waits)]
    exact Category.classify_of_find?_none (RunEnd.find?_exited _ _)

/-- A deck that cannot be written because the system's own connection timed out. -/
def unreachableDirectory : Engine :=
  { onPath := some "/usr/bin/ngspice", writeError := some "[Errno 110] Connection timed out" }

/-- The words of the system are taken for the runner's: a run without a process is said to have
taken too long. -/
theorem diagnosed_timeout_without_run :
    (Runner.mk none 60.0).run unreachableDirectory "" =
        inDirectory [] (.ok (.notWritten "[Errno 110] Connection timed out")) ∧
      ¬ ((Runner.mk none 60.0).run unreachableDirectory "").Overran ⟨none, 60.0⟩
        unreachableDirectory ∧
      Category.classify (RunEnd.notWritten "[Errno 110] Connection timed out").error
        (RunEnd.notWritten "[Errno 110] Connection timed out").stdout = .timeout := by
  refine ⟨rfl, ?_, by decide⟩
  rintro ⟨hkilled, -⟩
  cases hkilled

end Runner

end Breadboard
