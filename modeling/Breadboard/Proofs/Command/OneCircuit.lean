import Breadboard.Proofs.Command.Endings
import Breadboard.Proofs.Files.Listing
import Breadboard.Proofs.Lists

/-!
# One circuit in two commands

A simulation and a batch make the same of one circuit file: it cannot be loaded, its simulation
fails, or there is a text to write. What they make of it is a function of the file, the settings,
the date and the engine, and it is stated here once for both commands.
-/

namespace Breadboard

namespace Command

variable {t u : FileTree} {n : Json.Nesting} {s : Settings} {a : Surroundings} {c d e : Console}
  {file : String}

/-! ## Loading -/

/-- A circuit file opened: the circuit, what to tell the user instead, or a crash. -/
def opened (t : FileTree) (n : Json.Nesting) (file : String) :
    Except Crash (Except String Circuit) :=
  match t.present (.ofText file) with
  | .error e => .error (.file e)
  | .ok false => .ok (.error s!"file not found: {file}")
  | .ok true =>
    match Circuit.load t n (.ofText file) with
    | .ok circuit => .ok (.ok circuit)
    | .error e =>
      if e.isExpected then .ok (.error (loadProblem file e)) else .error (.document e)

theorem circuitIn_ends (file : String) :
    (circuitIn file).Ends a c (Action.orCrash (opened c.files a.nesting file)) c := by
  unfold circuitIn opened
  dsimp only
  cases hpresent : c.files.present (.ofText file) with
  | error e => exact (Action.Ends.ask_error hpresent).bind_error
  | ok present =>
    refine (Action.Ends.ask hpresent).bind fun messages => ?_
    cases present with
    | false => exact ⟨_, rfl⟩
    | true =>
      refine Action.Ends.files.bind fun _ => Action.Ends.surroundings.bind fun messages => ?_
      dsimp only
      cases hload : Circuit.load c.files a.nesting (.ofText file) with
      | ok circuit => exact (Action.Ends.log _).bind fun _ => ⟨_, rfl⟩
      | error e =>
        dsimp only
        split <;> exact ⟨_, rfl⟩

theorem exists_file_of_readJson {p : Path} {j : Json} (h : t.readJson n p = .ok j) :
    ∃ bytes, t.find p = .ok (.file bytes) := by
  unfold FileTree.readJson FileTree.readText FileTree.read at h
  cases hfind : t.find p with
  | error fault =>
    rw [hfind] at h
    cases h
  | ok place =>
    cases place with
    | file bytes => exact ⟨bytes, rfl⟩
    | directory =>
      rw [hfind] at h
      cases h

theorem readJson_congr {p : Path} (h : u.find p = t.find p) : u.readJson n p = t.readJson n p := by
  unfold FileTree.readJson FileTree.readText FileTree.read
  rw [h]

theorem load_congr {p : Path} (h : u.find p = t.find p) :
    Circuit.load u n p = Circuit.load t n p := by
  unfold Circuit.load
  rw [readJson_congr h]

theorem opened_congr (h : u.find (.ofText file) = t.find (.ofText file)) :
    opened u n file = opened t n file := by
  unfold opened FileTree.present
  rw [h, load_congr h]

theorem opened_eq_ok_iff {circuit : Circuit} :
    opened t n file = .ok (.ok circuit) ↔ Circuit.load t n (.ofText file) = .ok circuit := by
  constructor
  · intro h
    unfold opened at h
    split at h
    · cases h
    · cases h
    · split at h
      · next hload =>
        cases h
        exact hload
      · split at h <;> cases h
  · intro h
    obtain ⟨j, hjson, -⟩ := exists_of_bind_ok h
    obtain ⟨bytes, hfind⟩ := exists_file_of_readJson hjson
    unfold opened FileTree.present
    rw [hfind, h]

/-! ## Settings -/

/-- The settings that a command works with, or how it ends without any. -/
def accepted (t : FileTree) (n : Json.Nesting) (environment : Option String) :
    Option String → Except Halt Settings
  | none => .ok (Settings.defaults.withEnvironment environment)
  | some file =>
    match Settings.load t n environment (.ofText file) with
    | .ok s => .ok s
    | .error e => .error (if e.isExpected then .exit 1 else .crash (.document e))

theorem settingsIn_ends (settings : Option String) :
    (settingsIn settings).Ends a c (accepted c.files a.nesting a.environment settings) c := by
  cases settings with
  | none => exact ⟨_, rfl⟩
  | some file =>
    unfold settingsIn accepted
    refine Action.Ends.surroundings.bind fun _ => Action.Ends.files.bind fun _ =>
      (Action.Ends.log _).bind fun _ => Action.Ends.files.bind fun _ => ?_
    dsimp only
    cases hload : Settings.load c.files a.nesting a.environment (.ofText file) with
    | ok s => exact ⟨_, rfl⟩
    | error e =>
      dsimp only
      split
      · exact (Action.Ends.tell _).bind fun _ => ⟨_, rfl⟩
      · exact ⟨_, rfl⟩

/-- Settings that are accepted are accepted after directories were made. -/
theorem accepted_of_keeps {environment settings : Option String}
    (hkeeps : FileTree.Keeps (fun _ => False) t u)
    (h : accepted t n environment settings = .ok s) :
    accepted u n environment settings = .ok s := by
  cases settings with
  | none => exact h
  | some file =>
    rw [accepted] at h ⊢
    cases hload : Settings.load t n environment (.ofText file) with
    | error e =>
      rw [hload] at h
      cases h
    | ok loaded =>
      obtain ⟨j, hjson, -⟩ := exists_of_bind_ok hload
      obtain ⟨bytes, hfind⟩ := exists_file_of_readJson hjson
      obtain ⟨names, hresolve, -⟩ := FileTree.find_eq_ok_iff.mp hfind
      have hfind' := hkeeps.find_eq_ok hresolve not_false hfind
      have hsame : Settings.load u n environment (.ofText file) =
          Settings.load t n environment (.ofText file) := by
        unfold Settings.load
        rw [readJson_congr (hfind'.trans hfind.symm)]
      rw [hload] at h
      rw [hsame, hload, ← h]

/-! ## Reports -/

/-- The text of a result on a date. -/
def rendered (date : String) (r : SimulationReport) (format : ResultFormat) (name : String) :
    Except Crash String :=
  match format, r.transient with
  | .json, _ => .ok r.toJson.indented
  | .csv, none => .ok (Csv.ofOperatingPoint date name r.operatingPoint)
  | .csv, some l =>
    match Csv.ofSeries date name l with
    | .ok text => .ok text
    | .error _ => .error .shortVector

theorem reportText_ends (r : SimulationReport) (format : ResultFormat) (name : String) :
    (reportText r format name).Ends a c (Action.orCrash (rendered a.date r format name)) c := by
  unfold reportText rendered
  cases format with
  | json => exact ⟨_, rfl⟩
  | csv =>
    cases r.transient with
    | none => exact ⟨_, rfl⟩
    | some l =>
      refine Action.Ends.surroundings.bind fun _ => ?_
      dsimp only
      cases Csv.ofSeries a.date name l <;> exact ⟨_, rfl⟩

variable {r : SimulationReport} {format : ResultFormat} {crash : Crash}

/-! ## Deliveries -/

/-- How an action ends that comes to this for a circuit file and is to write its text to a path in
these files, and the files it leaves. Of endings without a crash, `ending` says which are those of a
file that has a text and which those of a file that has none. -/
inductive Delivers {α : Type} (ending : Bool → Except Halt α → Prop) (t : FileTree) (p : Path) :
    Except Crash (Option String) → Except Halt α → FileTree → Prop where
  | crashed {crash : Crash} : Delivers ending t p (.error crash) (.error (.crash crash)) t
  | unwritten {text : String} {fault : FileError} (h : t.write p text = .error fault) :
      Delivers ending t p (.ok (some text)) (.error (.crash (.file fault))) t
  | without {r : Except Halt α} (h : ending false r) : Delivers ending t p (.ok none) r t
  | written {text : String} {u : FileTree} {r : Except Halt α} (h : t.write p text = .ok u)
      (hr : ending true r) : Delivers ending t p (.ok (some text)) r u

/-- The files after a text was written, if there was one. -/
def delivered (t : FileTree) (p : Path) : Option String → Except FileError FileTree
  | none => .ok t
  | some text => t.write p text

/-- Without a crash the file has come to something, and its text is written if there is one. -/
theorem Delivers.exists_text {α : Type} {ending : Bool → Except Halt α → Prop} {p : Path}
    {result : Except Crash (Option String)} {r : Except Halt α}
    (h : Delivers ending t p result r u) (hcrash : ∀ crash, r ≠ .error (.crash crash)) :
    ∃ text?, result = .ok text? ∧ ending text?.isSome r ∧ delivered t p text? = .ok u := by
  cases h with
  | crashed => exact absurd rfl (hcrash _)
  | unwritten => exact absurd rfl (hcrash _)
  | without h => exact ⟨none, rfl, h, rfl⟩
  | written h hr => exact ⟨some _, rfl, hr, h⟩

theorem Delivers.crash_or_ending {α : Type} {ending : Bool → Except Halt α → Prop} {p : Path}
    {result : Except Crash (Option String)} {r : Except Halt α}
    (h : Delivers ending t p result r u) :
    (∃ crash, r = .error (.crash crash)) ∨ ∃ ok, ending ok r := by
  cases h with
  | crashed => exact .inl ⟨_, rfl⟩
  | unwritten => exact .inl ⟨_, rfl⟩
  | without h => exact .inr ⟨_, h⟩
  | written _ hr => exact .inr ⟨_, hr⟩

theorem write_report_ends {α : Type} {rest : Action α} {e : Except Halt α}
    (ending : Bool → Except Halt α → Prop) (a : Surroundings) (c : Console) (r : SimulationReport)
    (format : ResultFormat) (name : String) (p : Path) (hrest : ∀ c, rest.Ends a c e c)
    (he : ending true e) :
    ∃ e' d, (∀ messages, (reportText r format name >>= fun text =>
        Action.write p text >>= fun _ => rest).Ends a { c with messages } e' d) ∧
      Delivers ending c.files p ((rendered a.date r format name).map some) e' d.files ∧
      d.printed = c.printed ∧ d.runs = c.runs := by
  have hreport (messages : List String) : (reportText r format name).Ends a { c with messages }
      (Action.orCrash (rendered a.date r format name)) c := reportText_ends r format name
  cases htext : rendered a.date r format name with
  | error crash =>
    rw [htext] at hreport
    exact ⟨_, c, fun _ => (hreport _).bind_error, .crashed, rfl, rfl⟩
  | ok text =>
    rw [htext] at hreport
    cases hwrite : c.files.write p text with
    | error fault =>
      have hfault (messages : List String) := Action.Ends.write_error (s := a)
        (c := { c with messages }) hwrite
      exact ⟨_, c, fun _ => (hreport _).bind fun _ => (hfault _).bind_error, .unwritten hwrite,
        rfl, rfl⟩
    | ok written =>
      have hwritten (messages : List String) := Action.Ends.write (s := a)
        (c := { c with messages }) hwrite
      exact ⟨e, { c with files := written }, fun _ => (hreport _).bind fun _ =>
        (hwritten _).bind fun _ => hrest _, .written hwrite he, rfl, rfl⟩

/-! ## What is made of one file -/

/-- What simulating a circuit file comes to: the text of its result, or none if the file cannot be
loaded or its simulation fails. -/
def resultText (t : FileTree) (n : Json.Nesting) (s : Settings) (format : ResultFormat)
    (date : String) (engine : Engine) (file : String) : Except Crash (Option String) :=
  match opened t n file with
  | .error crash => .error crash
  | .ok (.error _) => .ok none
  | .ok (.ok circuit) =>
    match Action.simulated circuit.components s engine with
    | .error crash => .error crash
    | .ok r =>
      if r.success then (rendered date r format (Path.ofText file).stem).map some else .ok none

theorem resultText_congr {date : String} {engine : Engine}
    (h : u.find (.ofText file) = t.find (.ofText file)) :
    resultText u n s format date engine file = resultText t n s format date engine file := by
  unfold resultText
  rw [opened_congr h]

/-! ## Decks -/

/-- The deck of a circuit file, if it has one. -/
def deckText? (t : FileTree) (n : Json.Nesting) (s : Settings) (p : Path) : Option String :=
  match Circuit.load t n p with
  | .error _ => none
  | .ok circuit =>
    match Deck.ofComponents circuit.components s with
    | .error _ => none
    | .ok deck => some deck.text

theorem deckText?_congr {p : Path} (h : u.find p = t.find p) :
    deckText? u n s p = deckText? t n s p := by
  unfold deckText?
  rw [load_congr h]

theorem isSome_deckText?_of_circuit {circuit : Circuit}
    (h : opened t n file = .ok (.ok circuit)) :
    (deckText? t n s (.ofText file)).isSome = (Deck.ofComponents circuit.components s).isOk := by
  unfold deckText?
  rw [opened_eq_ok_iff.mp h]
  dsimp only
  cases Deck.ofComponents circuit.components s <;> rfl

theorem deckText?_of_not_opened (h : ∀ circuit, opened t n file ≠ .ok (.ok circuit)) :
    deckText? t n s (.ofText file) = none := by
  unfold deckText?
  cases hload : Circuit.load t n (.ofText file) with
  | error e => rfl
  | ok circuit => exact absurd (opened_eq_ok_iff.mpr hload) (h circuit)

/-- The engine bears on files with a deck alone. -/
theorem resultText_of_no_deck {date : String} (h : deckText? t n s (.ofText file) = none)
    (e e' : Engine) :
    resultText t n s format date e file = resultText t n s format date e' file := by
  unfold resultText
  cases hopened : opened t n file with
  | error crash => rfl
  | ok found =>
    cases found with
    | error problem => rfl
    | ok circuit =>
      have hdeck := isSome_deckText?_of_circuit (s := s) hopened
      rw [h] at hdeck
      have hsame : Action.simulated circuit.components s e =
          Action.simulated circuit.components s e' := by
        unfold Action.simulated Simulation.simulate
        cases hcomponents : Deck.ofComponents circuit.components s with
        | error conflict => rfl
        | ok deck =>
          rw [hcomponents] at hdeck
          cases hdeck
      dsimp only
      rw [hsame]

/-- The exit code of a command; none if it ends in a crash. -/
def exitCode? : Except Halt Nat → Option Nat
  | .ok code => some code
  | .error (.exit code) => some code
  | .error (.crash _) => none

/-- The ending of a file's name. -/
def extension : ResultFormat → String
  | .json => ".json"
  | .csv => ".csv"

/-- The entries of a batch for a file. -/
def EntryOf (name : String) (ok : Bool) (r : Except Halt BatchEntry) : Prop :=
  ∃ entry, r = .ok entry ∧ entry.file = name ∧ entry.isOk = ok

/-- What a batch does with the result of a file. -/
def noted (format : ResultFormat) (directory file : Path) (r : SimulationReport) :
    Action BatchEntry := do
  if r.success then
    Action.write (directory.child (file.stem ++ extension format))
      (← reportText r format file.stem)
    return ⟨file.name,
      .ok (if r.usedFallback then "fallback" else s!"{r.nodeMap.length - 1} net(s)")⟩
  else return ⟨file.name, .failed (firstLine r.error)⟩

theorem batchOne_of_report {directory file : Path} {circuit : Circuit}
    {ending : Except Halt BatchEntry}
    (hopened : opened c.files a.nesting file.text = .ok (.ok circuit))
    (hsimulate : ∀ messages,
      (Action.simulate circuit.components s).Ends a { c with messages } (.ok r) d)
    (hnoted : ∀ messages, (noted format directory file r).Ends a { d with messages } ending e) :
    (batchOne s format (some directory) file).Ends a c ending e := by
  have hcircuit := hopened ▸ circuitIn_ends (a := a) (c := c) file.text
  unfold batchOne
  refine hcircuit.bind fun _ => (hsimulate _).bind fun messages => ?_
  cases format with
  | json => exact hnoted messages
  | csv => exact hnoted messages

theorem noted_ends (a : Surroundings) (c : Console) (format : ResultFormat)
    (directory file : Path) (r : SimulationReport) :
    ∃ e d, (∀ messages, (noted format directory file r).Ends a { c with messages } e d) ∧
      Delivers (EntryOf file.name) c.files (directory.child (file.stem ++ extension format))
        (if r.success then (rendered a.date r format file.stem).map some else .ok none)
        e d.files ∧
      d.printed = c.printed ∧ d.runs = c.runs := by
  unfold noted
  by_cases hsuccess : r.success
  · simp only [if_pos hsuccess]
    exact write_report_ends (EntryOf file.name) a c r format file.stem _ (fun _ => ⟨_, rfl⟩)
      ⟨⟨file.name, .ok _⟩, rfl, rfl, rfl⟩
  · simp only [if_neg hsuccess]
    exact ⟨_, c, fun _ => ⟨_, rfl⟩, .without ⟨⟨file.name, .failed _⟩, rfl, rfl, rfl⟩, rfl, rfl⟩

/-- A batch notes what the file comes to, and its engine runs once if the file has a deck. -/
theorem batchOne_ends (a : Surroundings) (c : Console) (s : Settings) (format : ResultFormat)
    (directory : Path) {file : Path} (hfile : .ofText file.text = file) :
    ∃ r d, (batchOne s format (some directory) file).Ends a c r d ∧
      Delivers (EntryOf file.name) c.files (directory.child (file.stem ++ extension format))
        (resultText c.files a.nesting s format a.date (a.engine c.runs) file.text) r d.files ∧
      d.printed = c.printed ∧
      d.runs = c.runs + if (deckText? c.files a.nesting s file).isSome then 1 else 0 := by
  have hcircuit := circuitIn_ends (a := a) (c := c) file.text
  unfold resultText
  cases hopened : opened c.files a.nesting file.text with
  | error crash =>
    rw [hopened] at hcircuit
    have hdeck : deckText? c.files a.nesting s (.ofText file.text) = none :=
      deckText?_of_not_opened (by simp [hopened])
    rw [hfile] at hdeck
    refine ⟨.error (.crash crash), c, ?_, .crashed, rfl, by simp [hdeck]⟩
    unfold batchOne
    exact hcircuit.bind_error
  | ok found =>
    rw [hopened] at hcircuit
    cases found with
    | error problem =>
      have hdeck : deckText? c.files a.nesting s (.ofText file.text) = none :=
        deckText?_of_not_opened (by simp [hopened])
      rw [hfile] at hdeck
      refine ⟨.ok ⟨file.name, .notLoaded problem⟩, c, ?_, .without ⟨_, rfl, rfl, rfl⟩, rfl,
        by simp [hdeck]⟩
      unfold batchOne
      exact hcircuit.bind fun _ => ⟨_, rfl⟩
    | ok circuit =>
      have hdeck := isSome_deckText?_of_circuit (s := s) hopened
      rw [hfile] at hdeck
      let after : Console :=
        { c with runs := c.runs + if (Deck.ofComponents circuit.components s).isOk then 1 else 0 }
      have hruns : after.runs =
          c.runs + if (deckText? c.files a.nesting s file).isSome then 1 else 0 := by
        rw [hdeck]
      have hsimulate (messages : List String) : (Action.simulate circuit.components s).Ends a
          { c with messages }
          (Action.orCrash (Action.simulated circuit.components s (a.engine c.runs))) after :=
        Action.simulate_ends circuit.components s
      dsimp only
      cases hsimulated : Action.simulated circuit.components s (a.engine c.runs) with
      | error crash =>
        rw [hsimulated] at hsimulate
        refine ⟨.error (.crash crash), after, ?_, .crashed, rfl, hruns⟩
        unfold batchOne
        exact hcircuit.bind fun _ => (hsimulate _).bind_error
      | ok r =>
        rw [hsimulated] at hsimulate
        obtain ⟨ending, d, hnoted, hdelivers, hprinted, hcount⟩ :=
          noted_ends a after format directory file r
        refine ⟨ending, d, batchOne_of_report hopened hsimulate hnoted, ?_, hprinted,
          hcount.trans hruns⟩
        rw [hfile]
        exact hdelivers

theorem batchOne_ok {directory file : Path} {entry : BatchEntry}
    (hfile : .ofText file.text = file)
    (h : batchOne s format (some directory) file a c = (.ok entry, d)) :
    ∃ text?, resultText c.files a.nesting s format a.date (a.engine c.runs) file.text = .ok text? ∧
      entry.file = file.name ∧ entry.isOk = text?.isSome ∧
      delivered c.files (directory.child (file.stem ++ extension format)) text? = .ok d.files ∧
      d.printed = c.printed ∧
      d.runs = c.runs + if (deckText? c.files a.nesting s file).isSome then 1 else 0 := by
  obtain ⟨r, after, hends, hdelivers, hprinted, hruns⟩ :=
    batchOne_ends a c s format directory hfile
  obtain ⟨rfl, messages, rfl⟩ := hends.eq_of_run h
  obtain ⟨text?, htext, ⟨_, heq, hname, hok⟩, hfiles⟩ := hdelivers.exists_text (by simp)
  cases heq
  exact ⟨text?, htext, hname, hok, hfiles, hprinted, hruns⟩

end Command

end Breadboard
