import Breadboard.Command.Run
import Breadboard.Proofs.Simulation.Totality
import Breadboard.Proofs.Text.Lines

/-!
# The shape of results

A result is either a success, with values and no error, or a failure, with an error and no values.
Ohm's law stands in only for a run that succeeded and of which nothing was decoded, and a run that
did not succeed gives a failure.
-/

namespace Breadboard

open Text

namespace Command

theorem firstLine_append_ne_empty {a : String} (h : a.toList.head?.any (! endsLine ·))
    (b : String) : firstLine (a ++ b) ≠ "" := by
  have hab : (a ++ b).toList.head?.any (! endsLine ·) := by
    cases ha : a.toList with
    | nil => simp [ha] at h
    | cons c cs => simpa [ha] using h
  obtain ⟨l, ls, hlines, hl⟩ := exists_lines hab
  unfold firstLine
  rw [hlines]
  exact fun hempty => hl (String.ofList_eq_empty_iff.mp hempty)

end Command

/-- The message of a failure begins with its explanation. -/
theorem Category.exists_userMessage (c : Category) (detail : String) :
    ∃ rest, c.userMessage detail = c.explanation ++ rest := by
  have hfirst (a : String) (l : List String) : ∃ rest, "\n".intercalate (a :: l) = a ++ rest := by
    cases l with
    | nil => exact ⟨"", by simp⟩
    | cons b l => exact ⟨_, by rw [String.intercalate_cons_cons, String.append_assoc]⟩
  unfold userMessage
  rw [List.append_assoc, List.singleton_append]
  exact hfirst _ _

theorem Category.firstLine_userMessage (c : Category) (detail : String) :
    Command.firstLine (c.userMessage detail) ≠ "" := by
  obtain ⟨rest, hrest⟩ := c.exists_userMessage detail
  rw [hrest]
  exact Command.firstLine_append_ne_empty (by cases c <;> decide) rest

namespace SimulationReport

/-- A success: no error, and a series or an operating point. -/
structure Succeeds (r : SimulationReport) : Prop where
  success : r.success = true
  error : r.error = ""
  measured : r.transient ≠ none ∨ r.operatingPoint ≠ []

/-- A failure: an error that says something on its first line, and no values. -/
structure Fails (r : SimulationReport) : Prop where
  success : r.success = false
  error : r.error ≠ ""
  firstLine : Command.firstLine r.error ≠ ""
  transient : r.transient = none
  operatingPoint : r.operatingPoint = []
  probes : r.probes = []
  usedFallback : r.usedFallback = false

theorem fails_failure (deck : Deck) (rawOutput : Option String) {error : String}
    (h : Command.firstLine error ≠ "") : (failure deck rawOutput error).Fails where
  success := rfl
  error := by
    rintro (rfl : error = "")
    exact h rfl
  firstLine := h
  transient := rfl
  operatingPoint := rfl
  probes := rfl
  usedFallback := rfl

end SimulationReport

namespace Simulation

variable {components : List Component} {s : Settings} {deck : Deck} {r : Runner} {e : Engine}
  {report : SimulationReport}

/-! ## The ways to a result -/

theorem fails_conflictResult (conflict : JunctionConflict) : (conflictResult conflict).Fails := by
  have hfirst : Command.firstLine (conflictResult conflict).error ≠ "" :=
    Command.firstLine_append_ne_empty (a := "Netlist generation failed: ") (by decide) _
  refine ⟨rfl, fun hempty => hfirst ?_, hfirst, rfl, rfl, rfl, rfl⟩
  rw [hempty]
  rfl

theorem firstLine_noResults (reason : String) : Command.firstLine (noResults reason) ≠ "" := by
  have happend : noResults reason =
      "No simulation results could be decoded from the ngspice output (" ++ (reason ++ ")") :=
    String.append_assoc
  rw [happend]
  exact Command.firstLine_append_ne_empty (by decide) _

theorem succeeds_label {usedFallback : Bool} {point : List (String × Float)}
    {series : Option Series} (rawOutput : Option String) (h : series ≠ none ∨ point ≠ []) :
    (label components deck rawOutput usedFallback point series).Succeeds := by
  unfold label
  cases series with
  | none => exact ⟨rfl, rfl, .inr (h.resolve_left (by simp))⟩
  | some series => exact ⟨rfl, rfl, .inl (Option.some_ne_none _)⟩

theorem usedFallback_label (rawOutput : Option String) (usedFallback : Bool)
    (point : List (String × Float)) (series : Option Series) :
    (label components deck rawOutput usedFallback point series).usedFallback = usedFallback := by
  cases series <;> rfl

theorem fallbackNotice_mem_label (rawOutput : Option String) (point : List (String × Float))
    (series : Option Series) :
    fallbackNotice ∈ (label components deck rawOutput true point series).warnings := by
  cases series <;> simp [label]

/-- Decoding fails or succeeds, and if Ohm's law stands in, nothing was decoded and the result says
so. -/
theorem decode_shape {out : String} (h : decode components s deck (some out) = .ok report) :
    report.Fails ∨ report.Succeeds ∧ (report.usedFallback = true →
      Decoded.ofOutput out s.minPoints = .ok ⟨none, []⟩ ∧ fallbackNotice ∈ report.warnings) := by
  cases gives_of_decode h with
  | unread _ =>
    exact .inl (SimulationReport.fails_failure deck _
      (Command.firstLine_append_ne_empty (a := "Result parsing failed: ") (by decide) _))
  | declined _ _ => exact .inl (SimulationReport.fails_failure deck _ (firstLine_noResults _))
  | solved hdecoded _ =>
    exact .inr ⟨succeeds_label _ (.inl (Option.some_ne_none _)),
      fun _ => ⟨hdecoded, fallbackNotice_mem_label _ _ _⟩⟩
  | @decoded d hdecoded hfull =>
    refine .inr ⟨succeeds_label _ ?_, fun hused => ?_⟩
    · rw [Decoded.isEmpty, Bool.and_eq_true, not_and_or] at hfull
      simpa [Decoded.series] using hfull
    · rw [usedFallback_label] at hused
      cases hused

/-- A run that did not succeed is a failure, and the output of one that did is decoded. -/
theorem conclude_shape {run : Run} (h : conclude components s deck run = .ok report) :
    (∃ ended, run.outcome = .ok ended ∧ ended.success = false ∧ report.Fails) ∨
      ∃ out, run.outcome = .ok (.exited 0 out) ∧
        decode components s deck (some out) = .ok report := by
  cases hrun : run.outcome with
  | error e =>
    unfold conclude at h
    rw [hrun] at h
    cases h
  | ok ended =>
    by_cases hsuccess : ended.success
    · obtain ⟨out, rfl⟩ := RunEnd.success_iff.mp hsuccess
      rw [conclude_of_exited hrun] at h
      cases hdecode : decode components s deck (some out) with
      | error e =>
        rw [hdecode] at h
        cases h
      | ok decoded =>
        rw [hdecode] at h
        cases h
        exact .inr ⟨out, rfl, hdecode⟩
    · unfold conclude at h
      rw [hrun] at h
      dsimp only at h
      rw [if_neg hsuccess] at h
      cases h
      exact .inl ⟨ended, rfl, Bool.eq_false_iff.mpr hsuccess,
        SimulationReport.fails_failure deck _ (Category.firstLine_userMessage _ _)⟩

/-! ## Results -/

/-- **Every result is a success with values or a failure with an error.** If Ohm's law stood in, the
engine succeeded and its output was decoded to nothing at all, and the result says so. Without a run
that succeeded the result is a failure. -/
theorem shape_of_simulate (h : (simulate components s r e).result = .ok report) :
    (report.Succeeds ∨ report.Fails) ∧
    (report.usedFallback = true → ∃ deck out, Deck.ofComponents components s = .ok deck ∧
      (r.run e deck.text).outcome = .ok (.exited 0 out) ∧
      Decoded.ofOutput out s.minPoints = .ok ⟨none, []⟩ ∧ fallbackNotice ∈ report.warnings) ∧
    ((∀ deck, Deck.ofComponents components s = .ok deck →
      ∀ ended, (r.run e deck.text).outcome = .ok ended → ended.success = false) →
        report.Fails) := by
  unfold simulate at h
  cases hdeck : Deck.ofComponents components s with
  | error conflict =>
    rw [hdeck] at h
    cases h
    have hfails := fails_conflictResult conflict
    exact ⟨.inr hfails, fun hused => absurd hused (by simp [hfails.usedFallback]), fun _ => hfails⟩
  | ok deck =>
    rw [hdeck] at h
    rcases conclude_shape h with ⟨-, -, -, hfails⟩ | ⟨out, hout, hdecode⟩
    · exact ⟨.inr hfails, fun hused => absurd hused (by simp [hfails.usedFallback]),
        fun _ => hfails⟩
    · have hran : (∀ deck', .ok deck = (.ok deck' : Except JunctionConflict Deck) →
          ∀ ended, (r.run e deck'.text).outcome = .ok ended → ended.success = false) →
            report.Fails := by
        intro hnone
        cases hnone deck rfl _ hout
      rcases decode_shape hdecode with hfails | ⟨hsucceeds, hused⟩
      · exact ⟨.inr hfails, fun hused => absurd hused (by simp [hfails.usedFallback]), hran⟩
      · exact ⟨.inl hsucceeds, fun h => ⟨deck, out, rfl, hout, hused h⟩, hran⟩

/-- An engine that succeeds and prints a line that says nothing. -/
def mute : Engine where
  onPath := some "/usr/bin/ngspice"
  printed := encodeUtf8 "Done.\n".toList

theorem outcome_mute (deck : String) :
    ((Runner.mk none 60.0).run mute deck).outcome = .ok (.exited 0 "Done.\n") :=
  Runner.outcome_of_prompt rfl rfl rfl rfl rfl rfl (by decide +kernel) (by rfl)

theorem shape_of_simulate_mute :
    ∃ report, (simulate Deck.loaded Settings.defaults ⟨none, 60.0⟩ mute).result = .ok report ∧
      report.usedFallback = true ∧ report.Succeeds ∧ fallbackNotice ∈ report.warnings := by
  obtain ⟨deck, hdeck, hlines, -⟩ := Deck.exists_of_run Deck.loaded Settings.defaults
    ⟨⟨[("0", 0), ("a", 1)]⟩, [], []⟩ Deck.loadedLines (by decide +kernel)
  obtain ⟨hn, hread⟩ := Deck.readable_of_loadedLines hlines
  have hloop := (Deck.solve_eq_ok_iff hdeck (by decide) hn (fun l hl => (hread l hl).1)
    (fun l hl => (hread l hl).2) _).mpr ⟨⟨.voltageSource, "1", [1, 0], .source 5.0⟩,
      ⟨.resistor, "1", [1, 0], .value 1e3⟩, 1, 0, 5.0, 1e3,
      ⟨⟨rfl, rfl, rfl, .inl rfl, by decide, by decide +kernel, by decide +kernel,
        by decide +kernel⟩, .inl hlines⟩, rfl⟩
  have hdecoded : Decoded.ofOutput "Done.\n" Settings.defaults.minPoints = .ok ⟨none, []⟩ := by
    decide +kernel
  obtain ⟨report, hreport, hused⟩ : ∃ report,
      (simulate Deck.loaded Settings.defaults ⟨none, 60.0⟩ mute).result = .ok report ∧
        report.usedFallback = true := by
    rw [result_of_exited hdeck (outcome_mute deck.text), decode]
    simp only [Option.getD_some, hdecoded, Decoded.isEmpty, Option.isNone_none, List.isEmpty_nil,
      Bool.and_self, if_true, hloop, Except.mapError]
    exact ⟨_, rfl, usedFallback_label _ _ _ _⟩
  obtain ⟨hshape, hfallback, -⟩ := shape_of_simulate hreport
  obtain ⟨-, -, -, -, -, hnotice⟩ := hfallback hused
  refine ⟨report, hreport, hused, hshape.resolve_right fun hfails => ?_, hnotice⟩
  exact absurd hused (by simp [hfails.usedFallback])

end Simulation

end Breadboard
