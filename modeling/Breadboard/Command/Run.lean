import Breadboard.Command.Console
import Breadboard.Csv
import Breadboard.Files.Glob

/-!
# Commands

The five commands: simulate a circuit, validate it, export its deck, decode saved engine output
against a deck, and simulate a batch of circuits.
-/

namespace Breadboard.Command

open Breadboard.Action

/-- Why a circuit cannot be loaded, as it is told to the user. -/
def loadProblem (file : String) : DocumentError → String
  | .json (.malformed fault line column index) =>
    s!"invalid JSON in {file}: " ++ (Json.ReadError.malformed fault line column index).message
  | .file e => s!"cannot read {file}: {e.message}"
  | e => s!"invalid circuit file: {e.message}"

/-- The circuit in a file, or why there is none. -/
def circuitIn (file : String) : Action (Except String Circuit) := do
  let path := Path.ofText file
  if !(← ask (·.present path)) then return .error s!"file not found: {file}"
  match Circuit.load (← files) (← surroundings).nesting path with
  | .ok circuit =>
    log [⟨.info, "controllers.file_controller",
      s!"Loaded {circuit.components.length} component(s) from {path.text}"⟩]
    return .ok circuit
  | .error e => if e.isExpected then return .error (loadProblem file e) else crash (.document e)

/-- The circuit in a file; the command ends if there is none. -/
def load (file : String) : Action Circuit := do
  match ← circuitIn file with
  | .ok circuit => return circuit
  | .error problem =>
    tell s!"Error: {problem}"
    exit 1

/-- The settings in a file, or those of one who sets nothing. -/
def settingsIn (file : Option String) : Action Settings := do
  let s ← surroundings
  match file with
  | none => return Settings.defaults.withEnvironment s.environment
  | some file =>
    let path := Path.ofText file
    log ((Settings.ignoredIn (← files) s.nesting path).map fun key =>
      ⟨.warning, "simulation.settings",
        s!"Ignoring unknown simulation setting {Text.quoted key}"⟩)
    match Settings.load (← files) s.nesting s.environment path with
    | .ok settings => return settings
    | .error e =>
      if e.isExpected then
        tell s!"Error: invalid settings file {file}: {e.message}"
        exit 1
      else crash (.document e)

/-- Puts a text into the output file or prints it. -/
def deliver (text : String) (output : Option String) (what : String) : Action Unit := do
  match output with
  | some file =>
    write (.ofText file) text
    tell s!"{what} written to {file}"
  | none => print text

/-- The text of a result. -/
def reportText (r : SimulationReport) (format : ResultFormat) (name : String) :
    Action String := do
  match format, r.transient with
  | .json, _ => return r.toJson.indented
  | .csv, none => return Csv.ofOperatingPoint (← surroundings).date name r.operatingPoint
  | .csv, some l =>
    match Csv.ofSeries (← surroundings).date name l with
    | .ok text => return text
    | .error _ => crash .shortVector

/-- One quantity of an operating point, for people. -/
def quantityLine (key : String) (value : Float) : String :=
  let unit := if "i_".toList.isPrefixOf key.toList then "A" else "V"
  s!"  {key} = " ++ Quantity.forReader value unit

/-- Actions one after another. -/
def each {α : Type} (act : α → Action Unit) : List α → Action Unit
  | [] => pure ()
  | a :: rest => do
    act a
    each act rest

/-- Reports a result: its warnings, and its text or its error. -/
def announce (r : SimulationReport) (format : ResultFormat) (output : Option String)
    (name : String) : Action Nat := do
  each (fun w => tell s!"Warning: {w}") r.warnings
  if r.success then
    deliver (← reportText r format name) output "Results"
    if output.isSome then
      each (fun v => tell (quantityLine v.1 v.2)) (Csv.sorted r.operatingPoint)
    return 0
  else
    tell s!"Simulation failed: {r.error}"
    return 1

/-- Simulates a circuit and reports the result. -/
def simulateCircuit (settings : Option String) (circuit : String) (format : ResultFormat)
    (output : Option String) : Action Nat := do
  let model ← load circuit
  let s ← settingsIn settings
  announce (← simulate model.components s) format output (Path.ofText circuit).stem

/-- The deck of a circuit, logged. -/
def deckOf (model : Circuit) (s : Settings) : Action (Except JunctionConflict Deck) := do
  log (Journal.generation model.components s)
  return Deck.ofComponents model.components s

/-- Generates the deck of a circuit and reports what is skipped. -/
def validateCircuit (settings : Option String) (circuit : String) : Action Nat := do
  let model ← load circuit
  let s ← settingsIn settings
  match ← deckOf model s with
  | .error e =>
    tell s!"Circuit has errors: {circuit}"
    tell s!"  - {e.message}"
    return 1
  | .ok deck =>
    print s!"Circuit is valid: {circuit}"
    print s!"  {deck.deviceLines.length} device(s), {deck.nodeMap.indices.length} node(s)"
    each (fun d => print s!"  Warning: {d}") deck.diagnostics
    return 0

/-- Writes the deck of a circuit, and its node map or a list of it. -/
def exportCircuit (settings : Option String) (circuit : String) (output nodeMap : Option String) :
    Action Nat := do
  let model ← load circuit
  let s ← settingsIn settings
  match ← deckOf model s with
  | .error e =>
    tell s!"Error generating netlist: {e.message}"
    return 1
  | .ok deck =>
    each (fun d => tell s!"Warning: {d}") deck.diagnostics
    deliver deck.text output "Netlist"
    match nodeMap with
    | some file =>
      write (.ofText file) deck.nodeMap.toJson.indented
      tell s!"Node map written to {file}"
    | none => each (fun e => tell s!"  {e.1} -> node {e.2}") deck.nodeMap.entries
    return 0

/-- The text of a file; a file that the system cannot read ends the command. -/
def readOrExit (file : String) : Action String := do
  match (← files).readText (.ofText file) with
  | .ok text => return text
  | .error (.file e) =>
    if e.fault = .nul then crash (.file e)
    tell s!"Error: {e.message}"
    exit 1
  | .error e => crash (.document e)

/-- The node map in a file, or the map of ground alone; the command ends if there is none. -/
def nodeMapIn (file : Option String) : Action NodeMap := do
  match file with
  | none => return .ofEntries []
  | some file =>
    match NodeMap.load (← files) (← surroundings).nesting (.ofText file) with
    | .ok m => return m
    | .error e =>
      if e.isExpected then
        tell s!"Error: invalid node map {file}: {e.message}"
        exit 1
      else crash (.document e)

/-- Decodes saved output against the deck it came from and reports the result. -/
def decodeLog (settings : Option String) (file : String) (deckFile nodeMap : Option String)
    (format : ResultFormat) (output : Option String) : Action Nat := do
  let raw ← readOrExit file
  let text ← match deckFile with
    | some deckFile => readOrExit deckFile
    | none => crash .unnamedDeck
  let m ← nodeMapIn nodeMap
  let s ← settingsIn settings
  let deck : Deck := ⟨text, [], m, []⟩
  log (Journal.decoding s deck raw)
  let report ← lift ((Simulation.decode [] s deck (some raw)).mapError .tooManyDigits)
  announce report format output (Path.ofText file).stem

/-- What a batch says of a circuit. -/
inductive BatchStatus where
  | ok (details : String)
  | failed (error : String)
  | notLoaded (error : String)
  deriving DecidableEq, Repr

/-- A circuit file of a batch and what was said of it. -/
structure BatchEntry where
  file : String
  status : BatchStatus
  deriving DecidableEq, Repr

namespace BatchEntry

/-- Whether the circuit was simulated. -/
def isOk (e : BatchEntry) : Bool :=
  match e.status with
  | .ok _ => true
  | _ => false

/-- A text filled up with blanks to a width. -/
def padded (s : String) (width : Nat) : String :=
  s ++ String.ofList (List.replicate (width - s.length) ' ')

/-- A line of the summary. -/
def line (e : BatchEntry) : String :=
  let (status, details) := match e.status with
    | .ok details => ("OK", details)
    | .failed error => ("FAIL", error)
    | .notLoaded error => ("LOAD_ERROR", error)
  padded e.file 40 ++ " " ++ padded status 12 ++ " " ++ details

end BatchEntry

/-- The first line of a text. -/
def firstLine (s : String) : String :=
  match Text.lines s with
  | [] => ""
  | line :: _ => String.ofList line

/-- Simulates one circuit of a batch and writes its result. -/
def batchOne (s : Settings) (format : ResultFormat) (directory : Option Path) (file : Path) :
    Action BatchEntry := do
  match ← circuitIn file.text with
  | .error problem => return ⟨file.name, .notLoaded problem⟩
  | .ok model =>
    let r ← simulate model.components s
    if r.success then
      match directory with
      | none => pure ()
      | some d =>
        let extension := match format with
          | .json => ".json"
          | .csv => ".csv"
        write (d.child (file.stem ++ extension)) (← reportText r format file.stem)
      let details := if r.usedFallback then "fallback" else s!"{r.nodeMap.length - 1} net(s)"
      return ⟨file.name, .ok details⟩
    else return ⟨file.name, .failed (firstLine r.error)⟩

/-- Simulates the circuits of a batch, up to the first that fails if asked for. -/
def batchAll (s : Settings) (format : ResultFormat) (directory : Option Path) (failFast : Bool) :
    List Path → Action (List BatchEntry)
  | [] => return []
  | file :: rest => do
    let entry ← batchOne s format directory file
    if failFast && !entry.isOk then return [entry]
    else return entry :: (← batchAll s format directory failFast rest)

/-- The circuit files that a directory or a pattern stands for, sorted; nothing for what is
neither. -/
def batchFiles (t : FileTree) (pattern : String) : Except FileError (Option (List Path)) := do
  let path := Path.ofText pattern
  let sort := fun paths : List Path => paths.mergeSort Path.le
  if ← t.leadsToDirectory path then
    match t.resolve path with
    | .error _ => return some []
    | .ok names =>
      return some (sort (((t.list names).filter (Glob.matchesName "*.json")).map path.child))
  else if pattern.toList.any fun c => c == '*' || c == '?' then
    return some (sort (← Glob.paths t pattern))
  else return none

/-- The summary of a batch. -/
def summary (entries : List BatchEntry) : List String :=
  let passed := (entries.filter BatchEntry.isOk).length
  ["\n" ++ BatchEntry.padded "File" 40 ++ " " ++ BatchEntry.padded "Status" 12 ++ " Details",
    String.ofList (List.replicate 70 '-')]
  ++ entries.map BatchEntry.line
  ++ [s!"\n{passed}/{entries.length} succeeded, {entries.length - passed} failed"]

/-- Simulates the circuits of a batch and sums up. -/
def batch (settings : Option String) (pattern : String) (format : ResultFormat)
    (directory : Option String) (failFast : Bool) : Action Nat := do
  match ← ask (batchFiles · pattern) with
  | none =>
    tell s!"Error: {pattern} is not a directory or glob pattern"
    return 1
  | some [] =>
    tell s!"No .json circuit files found matching: {pattern}"
    return 1
  | some paths =>
    let target := directory.map Path.ofText
    match target with
    | none => pure ()
    | some d => makeDirectories d
    let s ← settingsIn settings
    let entries ← batchAll s format target failFast paths
    each print (summary entries)
    return if entries.all BatchEntry.isOk then 0 else 1

/-- The action of a job. -/
def perform (settings : Option String) : Job → Action Nat
  | .simulate circuit format output => simulateCircuit settings circuit format output
  | .validate circuit => validateCircuit settings circuit
  | .exportDeck circuit output nodeMap => exportCircuit settings circuit output nodeMap
  | .decode file deck nodeMap format output => decodeLog settings file deck nodeMap format output
  | .batch path format directory failFast => batch settings path format directory failFast

/-- How a command ended: with an exit code or a crash, and the console after it. -/
structure Ending where
  code : Except Crash Nat
  console : Console

/-- Runs the program on its arguments. -/
def runProgram (args : List String) (files : FileTree) (engine : Nat → Engine)
    (environment : Option String) (date : String) (nesting : Json.Nesting) : Ending :=
  match Invocation.read args with
  | .error .usage => ⟨.ok 2, { files }⟩
  | .error .help => ⟨.ok 0, { files }⟩
  | .ok invocation =>
    match perform invocation.settings invocation.job
        ⟨engine, invocation.verbose, environment, date, nesting⟩ { files } with
    | (.ok code, console) => ⟨.ok code, console⟩
    | (.error (.exit code), console) => ⟨.ok code, console⟩
    | (.error (.crash c), console) => ⟨.error c, console⟩

end Breadboard.Command
