import Breadboard.Decimal.Basic
import Breadboard.Decimal.Layout
import Breadboard.Text.Utf8

/-!
# Running the engine

The engine is a child process known by what it does: whether it is found, starts, hangs, ends, and
what it prints. A runner waits for it in short steps, kills it when the time is over or the run is
cancelled, and gives its output with an error text. Two errors escape a run: a time limit that no
float holds, and output that is no text.
-/

namespace Breadboard

/-- The surroundings and the behaviour of an engine during one run. -/
structure Engine where
  /-- What the search path gives for the engine's name. -/
  onPath : Option String := none
  /-- The paths that exist. -/
  existing : List String := []
  /-- The name of the platform. -/
  platform : String := "Linux"
  /-- Why the deck cannot be written. -/
  writeError : Option String := none
  /-- Why the process cannot be started. -/
  startError : Option String := none
  /-- How many waits go by before the process ends. -/
  hang : Nat := 0
  /-- The bytes that the process has printed when it ends or is killed, with unified line ends. -/
  printed : List UInt8 := []
  /-- The exit code of the process. -/
  exitCode : Int := 0
  /-- After how many waits the run is cancelled. -/
  cancelAfter : Option Int := none
  /-- Whether the process outlives the wait after it was killed. -/
  survivesKill : Bool := false
  /-- The number of the process. -/
  processId : Nat := 1
  /-- What the clock shows when the time limit is set. -/
  startReading : Float := 0.0
  /-- What the clock shows when these waits have gone by. -/
  reading : List Float → Float := fun waits => waits.foldl (· + ·) 0.0

/-- A time limit in seconds: a float, or a whole number of any size. -/
inductive TimeLimit where
  | float (f : Float)
  | whole (n : Int)
  deriving DecidableEq

namespace TimeLimit

instance : Coe Float TimeLimit := ⟨float⟩

instance : OfScientific TimeLimit := ⟨fun m s e => float (OfScientific.ofScientific m s e)⟩

/-- The limit as a float; a whole number may be too large for one. -/
def seconds? : TimeLimit → Option Float
  | float f => some f
  | whole n => Decimal.floatOfInt? n

end TimeLimit

/-- A runner: the engine command in use and the time limit. -/
structure Runner where
  command : Option String
  timeout : TimeLimit

/-- How a run ended. -/
inductive RunEnd where
  | notFound
  | notWritten (reason : String)
  | notStarted (reason : String)
  | cancelled
  | timedOut (limit : Float)
  | exited (code : Int) (printed : String)
  deriving DecidableEq

namespace RunEnd

/-- Whether the run gave a result. -/
def success : RunEnd → Bool
  | .exited code _ => code == 0
  | _ => false

/-- The output of the run; nothing is kept of a killed process. -/
def stdout : RunEnd → String
  | .exited _ printed => printed
  | _ => ""

/-- The error text of the run, empty if there is none. -/
def error : RunEnd → String
  | .notFound => "ngspice executable not found"
  | .notWritten reason => s!"Failed to write deck: {reason}"
  | .notStarted reason => s!"Failed to start ngspice: {reason}"
  | .cancelled => "Simulation cancelled"
  | .timedOut limit => s!"Simulation timed out (>{Real.general limit 6} seconds)"
  | .exited code _ => if code = 0 then "" else s!"ngspice exited with code {code}"

end RunEnd

/-- An error that escapes a run: the time limit is too large for a float, or the output is no
text. -/
inductive RunFault where
  | limit
  | output (e : Text.Utf8Error)
  deriving DecidableEq

/-- The wording of an error. -/
def RunFault.message : RunFault → String
  | .limit => "int too large to convert to float"
  | .output e => e.message

/-- What a runner does in a run. -/
inductive RunEvent where
  | makeDirectory
  | writeDeck (text : String)
  | start (command : List String)
  | wait (seconds : Float)
  | kill
  | removeDirectory
  deriving DecidableEq

/-- A run: what was done, in order, and how it ended. -/
structure Run where
  events : List RunEvent
  outcome : Except RunFault RunEnd

namespace Run

/-- The command that was started or was to be started. -/
def command (r : Run) : Option (List String) :=
  r.events.findSome? fun | .start command => some command | _ => none

/-- The deck that the process was given. -/
def deck (r : Run) : Option String :=
  r.events.findSome? fun | .writeDeck text => some text | _ => none

/-- All waits, the one after a kill included. -/
def waits (r : Run) : List Float :=
  r.events.filterMap fun | .wait seconds => some seconds | _ => none

/-- Whether the process was killed. -/
def killed (r : Run) : Bool := r.events.contains .kill

/-- Whether the working directory, if one was made, is gone at the end. -/
def cleanedUp (r : Run) : Bool :=
  r.events.isEmpty ||
    (r.events.head? == some .makeDirectory && r.events.getLast? == some .removeDirectory)

end Run

namespace Engine

/-- The name under which the engine is looked for. -/
def executable : String := "ngspice"

/-- Where the engine is usually installed. -/
def usualPaths (platform : String) : List String :=
  if platform = "Windows" then
    ["C:\\Program Files\\Spice64\\bin\\ngspice.exe", "C:\\Program Files\\ngspice\\bin\\ngspice.exe",
      "C:\\ngspice\\bin\\ngspice.exe"]
  else if platform = "Linux" then ["/usr/bin/ngspice", "/usr/local/bin/ngspice"]
  else if platform = "Darwin" then ["/usr/local/bin/ngspice", "/opt/homebrew/bin/ngspice"]
  else []

/-- Whether the run has been cancelled after this many waits. -/
def cancelledAfter (e : Engine) (waits : Nat) : Bool :=
  match e.cancelAfter with
  | none => false
  | some n => n ≤ waits

/-- The time that is left when these waits have gone by. -/
def remaining (e : Engine) (limit : Float) (waits : List Float) : Float :=
  e.startReading + limit - e.reading waits

/-- What the process has printed, as a text. -/
def text (e : Engine) : Except Text.Utf8Error String :=
  (Text.decodeUtf8 e.printed).map String.ofList

/-- The end of a run whose process has ended by itself. -/
def ended (e : Engine) : Except RunFault RunEnd :=
  match e.text with
  | .ok printed => .ok (.exited e.exitCode printed)
  | .error fault => .error (.output fault)

/-- The end of a run whose process was killed for this reason. The output is collected once more,
unless the process outlives the kill, and nothing is kept of it. -/
def killed (e : Engine) (reason : RunEnd) : Except RunFault RunEnd :=
  if e.survivesKill then .ok reason
  else
    match e.text with
    | .ok _ => .ok reason
    | .error fault => .error (.output fault)

end Engine

namespace Runner

/-- The longest single wait. -/
def pollInterval : Float := 0.1

/-- The wait after a kill. -/
def killWait : Float := 5.0

/-- The engine command: the one in use if it exists, the one on the search path, or one at a usual
place. -/
def find (r : Runner) (e : Engine) : Option String :=
  let configured := r.command.filter fun c => !c.isEmpty && e.existing.contains c
  let onPath := e.onPath.filter (! ·.isEmpty)
  configured.or (onPath.or ((Engine.usualPaths e.platform).find? e.existing.contains))

/-- The runner with the command it found. -/
def located (r : Runner) (e : Engine) : Runner := { r with command := r.find e }

/-- The next wait when `remaining` seconds are left. -/
def nextWait (remaining : Float) : Float :=
  if remaining < pollInterval then remaining else pollInterval

/-- Why the run is to be ended when these waits have gone by, if it is. -/
def stop? (e : Engine) (limit : Float) (waits : List Float) : Option RunEnd :=
  if e.cancelledAfter waits.length then some .cancelled
  else if e.remaining limit waits ≤ 0.0 then some (.timedOut limit)
  else none

/-- Waits for a process that ends in the wait after `hang` more, where these waits have gone by. -/
def wait (e : Engine) (limit : Float) :
    (hang : Nat) → (waits : List Float) → List RunEvent × Except RunFault RunEnd
  | 0, waits =>
    match stop? e limit waits with
    | some reason => ([.kill, .wait killWait], e.killed reason)
    | none => ([.wait (nextWait (e.remaining limit waits))], e.ended)
  | hang + 1, waits =>
    match stop? e limit waits with
    | some reason => ([.kill, .wait killWait], e.killed reason)
    | none =>
      let t := nextWait (e.remaining limit waits)
      let (events, outcome) := wait e limit hang (waits ++ [t])
      (.wait t :: events, outcome)

/-- A run in a working directory of its own. -/
def inDirectory (events : List RunEvent) (outcome : Except RunFault RunEnd) : Run :=
  ⟨.makeDirectory :: events ++ [.removeDirectory], outcome⟩

/-- Runs the engine on a deck. -/
def run (r : Runner) (e : Engine) (deck : String) : Run :=
  match r.find e with
  | none => ⟨[], .ok .notFound⟩
  | some command =>
    match e.writeError with
    | some reason => inDirectory [] (.ok (.notWritten reason))
    | none =>
      let begun : List RunEvent := [.writeDeck deck, .start [command, "-b", "circuit.cir"]]
      match e.startError with
      | some reason => inDirectory begun (.ok (.notStarted reason))
      | none =>
        match r.timeout.seconds? with
        | none => inDirectory begun (.error .limit)
        | some limit =>
          let (events, outcome) := wait e limit e.hang []
          inDirectory (begun ++ events) outcome

end Runner

end Breadboard
