import Breadboard.Proofs.Netlist.SavedMap
import Breadboard.Proofs.Simulation.Totality

/-!
# Decoding saved files

A deck, its node map and the output of the engine can be saved to files. Decoding the files gives
what the simulation gave, up to what the circuit itself says.
-/

namespace Breadboard

open Text Numeral

/-! ## Output with the same lines -/

namespace Decoded

variable {a b : String}

/-- What is decoded depends on the lines of an output alone. -/
theorem ofOutput_of_lines (h : lines a = lines b) (minPoints : Int) :
    ofOutput a minPoints = ofOutput b minPoints := by
  have hread (s : Strategy) : s.read a = s.read b := by
    cases s with
    | table =>
      unfold Strategy.read Table.readWithDropped
      rw [h]
    | rawFile =>
      unfold Strategy.read RawFile.read
      rw [h]
  have hsearch (strategies : List Strategy) :
      search a minPoints strategies = search b minPoints strategies := by
    induction strategies with
    | nil => rfl
    | cons s rest ih => rw [search, search, hread, ih]
  have hpoint : OperatingPoint.read a = OperatingPoint.read b := by
    unfold OperatingPoint.read
    rw [h]
  unfold ofOutput
  rw [hsearch, hpoint]

end Decoded

/-! ## Results that agree -/

/-- Two results that say the same of the engine's output. -/
structure SimulationReport.Agrees (a b : SimulationReport) : Prop where
  success : a.success = b.success
  transient : a.transient = b.transient
  operatingPoint : a.operatingPoint = b.operatingPoint
  usedFallback : a.usedFallback = b.usedFallback
  nodeMap : a.nodeMap = b.nodeMap
  error : a.error = b.error

namespace Simulation

variable {components others : List Component} {s : Settings} {deck saved : Deck} {out raw : String}

theorem label_agrees (hmap : saved.nodeMap = deck.nodeMap) (x y : Option String)
    (usedFallback : Bool) (operatingPoint : List (String × Float)) (series : Option Series) :
    (label components deck x usedFallback operatingPoint series).Agrees
      (label others saved y usedFallback operatingPoint series) := by
  unfold label
  rw [hmap]
  cases series with
  | none => exact ⟨rfl, rfl, rfl, rfl, rfl, rfl⟩
  | some series => exact ⟨rfl, rfl, rfl, rfl, rfl, rfl⟩

theorem failure_agrees (hmap : saved.nodeMap = deck.nodeMap) (x y : Option String)
    (error : String) :
    (SimulationReport.failure deck x error).Agrees (.failure saved y error) := by
  unfold SimulationReport.failure
  rw [hmap]
  exact ⟨rfl, rfl, rfl, rfl, rfl, rfl⟩

/-- Results of one deck agree whatever the circuits are, and they are errors together. -/
theorem decode_agrees (hmap : saved.nodeMap = deck.nodeMap)
    (htext : lines saved.text = lines deck.text) (hout : lines raw = lines out) :
    (∀ e, decode components s deck (some out) = .error e ↔
      decode others s saved (some raw) = .error e) ∧
    ∀ x y, decode components s deck (some out) = .ok x → decode others s saved (some raw) = .ok y →
      x.Agrees y := by
  have hdecoded := Decoded.ofOutput_of_lines hout s.minPoints
  have hsolve : OhmsLaw.solve saved.text = OhmsLaw.solve deck.text := by
    unfold OhmsLaw.solve
    rw [htext]
  refine ⟨fun e => ?_, fun x y hx hy => ?_⟩
  · rw [decode_eq_error_iff, decode_eq_error_iff, hdecoded, hsolve]
  · unfold decode at hx hy
    rw [Option.getD_some] at hx hy
    -- From here on both sides branch on the same values.
    rw [hdecoded, hsolve] at hy
    cases hread : Decoded.ofOutput out s.minPoints with
    | error e =>
      rw [hread] at hx hy
      cases hx
      cases hy
      exact failure_agrees hmap _ _ _
    | ok decoded =>
      rw [hread] at hx hy
      dsimp only at hx hy
      split at hx
      · next hempty =>
        rw [if_pos hempty] at hy
        cases hloop : OhmsLaw.solve deck.text with
        | error refusal =>
          rw [hloop] at hx hy
          cases refusal <;> cases hx <;> cases hy <;> exact failure_agrees hmap _ _ _
        | ok loop =>
          rw [hloop] at hx hy
          cases hx
          cases hy
          exact label_agrees hmap _ _ _ _ _
      · next hfull =>
        rw [if_neg hfull] at hy
        cases hx
        cases hy
        exact label_agrees hmap _ _ _ _ _

/-- **Saved files are decoded as the run was.** A node map that is loaded from its file is that of
the deck, and it is loaded if all its numbers can be read. With it, and with deck and output as they
are read from their files, decoding agrees with the simulation in which the engine printed the
output. -/
theorem simulate_agrees_saved (hdeck : Deck.ofComponents components s = .ok deck) {r : Runner}
    {engine : Engine} (hrun : (r.run engine deck.text).outcome = .ok (.exited 0 out)) {t : FileTree}
    {mapFile deckFile log : Path} (hmap : t.Holds mapFile deck.nodeMap.toJson.indented)
    (htext : t.Holds deckFile deck.text) (hlog : t.Holds log out) (n : Json.Nesting) :
    (NodeMap.load t n mapFile = .ok deck.nodeMap ↔ deck.nodeMap.IsShort) ∧
    (∀ m, NodeMap.load t n mapFile = .ok m → m = deck.nodeMap) ∧
    ∃ text raw, t.readText deckFile = .ok text ∧ t.readText log = .ok raw ∧
      (∀ fault, (simulate components s r engine).result = .error fault ↔ ∃ e,
        decode [] s ⟨text, [], deck.nodeMap, []⟩ (some raw) = .error e ∧
          fault = .tooManyDigits e) ∧
      ∀ live saved, (simulate components s r engine).result = .ok live →
        decode [] s ⟨text, [], deck.nodeMap, []⟩ (some raw) = .ok saved → live.Agrees saved := by
  have hload := NodeMap.load_of_holds n (Deck.isLoadable_nodeMap hdeck) hmap
  refine ⟨⟨fun hok => ?_, hload.1⟩, fun m hm => ?_, _, _, htext.readText, hlog.readText, ?_⟩
  · by_contra hlong
    obtain ⟨e, he⟩ := hload.2 hlong
    rw [he] at hok
    cases hok
  · by_cases hshort : deck.nodeMap.IsShort
    · rw [hload.1 hshort] at hm
      exact (Except.ok.inj hm).symm
    · obtain ⟨e, he⟩ := hload.2 hshort
      rw [he] at hm
      cases hm
  · obtain ⟨text, htext⟩ : ∃ text, text = String.ofList (unifyNewlines deck.text.toList) :=
      ⟨_, rfl⟩
    have hlines : lines (Deck.mk text [] deck.nodeMap []).text = lines deck.text := by
      rw [htext]
      exact lines_unifyNewlines deck.text
    obtain ⟨herror, hagrees⟩ := @decode_agrees components [] s deck
      ⟨text, [], deck.nodeMap, []⟩ out _ rfl hlines (lines_unifyNewlines out)
    rw [result_of_exited hdeck hrun, ← htext]
    cases hdecode : decode components s deck (some out) with
    | error e =>
      have hsaved := (herror e).mp hdecode
      refine ⟨fun fault => ⟨?_, ?_⟩, nofun⟩
      · rintro ⟨⟩
        exact ⟨e, hsaved, rfl⟩
      · rintro ⟨e', he', rfl⟩
        cases hsaved.symm.trans he'
        rfl
    | ok report =>
      refine ⟨fun fault => ?_, ?_⟩
      · refine iff_of_false nofun ?_
        rintro ⟨e, he, -⟩
        rw [(herror e).mpr he] at hdecode
        cases hdecode
      · rintro live saved ⟨⟩ hsaved
        exact hagrees _ _ hdecode hsaved

/-- A source across a resistor, at a net whose name is written with escapes. -/
def escapedNet : List Component :=
  [.wired "1" (.device .voltageSource) [("1", "0"), ("2", "\"µ😀")],
    .wired "1" (.device .resistor) [("1", "\"µ😀"), ("2", "0")]]

/-- The files of a node map, a deck and an output. -/
def savedFiles (nodeMap deck out : String) : FileTree where
  files := [(["map.json"], encodeUtf8 nodeMap.toList), (["deck.cir"], encodeUtf8 deck.toList),
    (["run.log"], encodeUtf8 out.toList)]
  directories := []
  here := []

/-- An engine that prints a line that says nothing. -/
def idleEngine : Engine where
  onPath := some "/usr/bin/ngspice"
  printed := encodeUtf8 "Done.\n".toList

theorem simulate_agrees_saved_escaped :
    ∃ deck, Deck.ofComponents escapedNet Settings.defaults = .ok deck ∧
      deck.nodeMap.entries = [("0", 0), ("\"µ😀", 1)] ∧
      NodeMap.load (savedFiles deck.nodeMap.toJson.indented deck.text "Done.\n")
        .usual ⟨"", ["map.json"]⟩ = .ok deck.nodeMap ∧
      ∃ text raw live saved,
        (savedFiles deck.nodeMap.toJson.indented deck.text "Done.\n").readText
          ⟨"", ["deck.cir"]⟩ = .ok text ∧
        (savedFiles deck.nodeMap.toJson.indented deck.text "Done.\n").readText
          ⟨"", ["run.log"]⟩ = .ok raw ∧
        (simulate escapedNet Settings.defaults ⟨none, 60.0⟩ idleEngine).result = .ok live ∧
        decode [] Settings.defaults ⟨text, [], deck.nodeMap, []⟩ (some raw) = .ok saved ∧
        live.Agrees saved := by
  obtain ⟨deck, hdeck, hlines, hmap⟩ := Deck.exists_of_run escapedNet Settings.defaults
    ⟨⟨[("0", 0), ("\"µ😀", 1)]⟩, [], []⟩ Deck.loadedLines (by decide +kernel)
  have hrun (deck : String) : ((Runner.mk none 60.0).run idleEngine deck).outcome =
      .ok (.exited 0 "Done.\n") :=
    Runner.outcome_of_prompt rfl rfl rfl rfl rfl rfl (by decide +kernel) (by rfl)
  have hshort : deck.nodeMap.IsShort := by
    rw [hmap]
    unfold NodeMap.IsShort
    decide +kernel
  have hmapFile (a b c : String) : (savedFiles a b c).Holds ⟨"", ["map.json"]⟩ a := rfl
  have hdeckFile (a b c : String) : (savedFiles a b c).Holds ⟨"", ["deck.cir"]⟩ b := rfl
  have hlog (a b c : String) : (savedFiles a b c).Holds ⟨"", ["run.log"]⟩ c := rfl
  obtain ⟨hload, -, text, raw, htext, hraw, herror, hagrees⟩ := simulate_agrees_saved hdeck
    (hrun deck.text) (hmapFile deck.nodeMap.toJson.indented deck.text "Done.\n") (hdeckFile _ _ _)
    (hlog _ _ _) .usual
  obtain ⟨live, hlive⟩ := exists_result (s := Settings.defaults) (by decide) (fun other hother => by
    rw [hdeck] at hother
    cases hother
    exact Deck.readable_of_loadedLines hlines) (fun text e he => by
    rw [hrun text] at he
    cases he)
  have hsaved : ∃ saved, decode [] Settings.defaults ⟨text, [], deck.nodeMap, []⟩ (some raw) =
      .ok saved := by
    cases hdecode : decode [] Settings.defaults ⟨text, [], deck.nodeMap, []⟩ (some raw) with
    | ok saved => exact ⟨saved, rfl⟩
    | error e =>
      rw [(herror _).mpr ⟨e, hdecode, rfl⟩] at hlive
      cases hlive
  obtain ⟨saved, hsaved⟩ := hsaved
  exact ⟨deck, hdeck, by rw [hmap]; rfl, hload.mpr hshort, text, raw, live, saved, htext, hraw,
    hlive, hsaved, hagrees live saved hlive hsaved⟩

end Simulation

end Breadboard
