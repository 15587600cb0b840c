import Breadboard.Command.Arguments
import Breadboard.Files.Documents
import Breadboard.Journal

/-!
# The console

A command reads and writes files, prints, logs, and runs the engine. The console keeps all that it
did; an action ends with a value, with an exit code, or with an error that no command handles.
-/

namespace Breadboard

/-- What a command works with: the engine of each run, whether details are logged, the engine path
of the environment, the date, and how deep documents may be nested. -/
structure Surroundings where
  engine : Nat → Engine
  verbose : Bool
  environment : Option String
  date : String
  nesting : Json.Nesting

/-- What was done so far: the files, what was printed and logged, last first, and the number of
engine runs. -/
structure Console where
  files : FileTree
  printed : List String := []
  messages : List String := []
  runs : Nat := 0

/-- All that was printed. -/
def Console.output (c : Console) : String := String.join c.printed.reverse

/-- All messages and log lines. -/
def Console.report (c : Console) : String := String.join c.messages.reverse

/-- An error that ends a command without an exit code. -/
inductive Crash where
  | document (e : DocumentError)
  | file (e : FileError)
  | simulation (e : Simulation.Fault)
  | shortVector
  | unnamedDeck

/-- The wording of an error that ends a command. -/
def Crash.message : Crash → String
  | .document e => e.message
  | .file e => e.message
  | .simulation e => e.message
  | .shortVector => "a vector is shorter than the time vector"
  | .unnamedDeck => "the deck of the output is not named"

/-- How an action ends early. -/
inductive Halt where
  | exit (code : Nat)
  | crash (c : Crash)

/-- An action on the console. -/
abbrev Action (α : Type) : Type := Surroundings → Console → Except Halt α × Console

namespace Action

instance : Monad Action where
  pure a := fun _ c => (.ok a, c)
  bind x f := fun s c =>
    match x s c with
    | (.ok a, c) => f a s c
    | (.error h, c) => (.error h, c)

/-- Ends the command with an exit code. -/
def exit {α : Type} (code : Nat) : Action α := fun _ c => (.error (.exit code), c)

/-- Ends the command with an error. -/
def crash {α : Type} (e : Crash) : Action α := fun _ c => (.error (.crash e), c)

/-- Prints a line. -/
def print (line : String) : Action Unit := fun _ c =>
  (.ok (), { c with printed := (line ++ "\n") :: c.printed })

/-- Prints a message. -/
def tell (line : String) : Action Unit := fun _ c =>
  (.ok (), { c with messages := (line ++ "\n") :: c.messages })

/-- Writes log lines, details only if they are asked for. -/
def log (lines : List LogLine) : Action Unit := fun s c =>
  let shown := lines.filter fun l => s.verbose || l.level.always
  (.ok (), { c with messages := (shown.map fun l => l.render ++ "\n").reverse ++ c.messages })

/-- The surroundings. -/
def surroundings : Action Surroundings := fun s c => (.ok s, c)

/-- The files. -/
def files : Action FileTree := fun _ c => (.ok c.files, c)

/-- Writes a text to a file. -/
def write (p : Path) (text : String) : Action Unit := fun _ c =>
  match c.files.write p text with
  | .ok files => (.ok (), { c with files })
  | .error e => (.error (.crash (.file e)), c)

/-- Makes a directory and those above it. -/
def makeDirectories (p : Path) : Action Unit := fun _ c =>
  match c.files.makeDirectories p with
  | .ok files => (.ok (), { c with files })
  | .error e => (.error (.crash (.file e)), c)

/-- The answer of a question to the files. -/
def ask {α : Type} (question : FileTree → Except FileError α) : Action α := fun _ c =>
  match question c.files with
  | .ok a => (.ok a, c)
  | .error e => (.error (.crash (.file e)), c)

/-- The value of a simulation that may have failed. -/
def lift {α : Type} (r : Except Simulation.Fault α) : Action α := fun _ c =>
  match r with
  | .ok a => (.ok a, c)
  | .error e => (.error (.crash (.simulation e)), c)

/-- Runs a simulation with the next engine. Commands do not cancel a run. -/
def simulate (components : List Component) (settings : Settings) : Action SimulationReport :=
  fun s c =>
    let engine := { s.engine c.runs with cancelAfter := none }
    let runner := Simulation.runner settings
    let outcome := Simulation.simulate components settings runner engine
    let runs := if outcome.run.isSome then c.runs + 1 else c.runs
    let (_, c) := log (Journal.simulation components settings runner engine) s { c with runs }
    lift outcome.result s c

end Action

end Breadboard
