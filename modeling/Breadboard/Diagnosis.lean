import Breadboard.Text.Fold

/-!
# Diagnoses

A failed run is put into a category by what its error says and, failing that, by what the engine
printed, and is explained to the person who built the circuit.
-/

namespace Breadboard

open Text

/-- Why a simulation failed. -/
inductive Category where
  | executableNotFound
  | timeout
  | cancelled
  | singularMatrix
  | dcConvergence
  | timestepTooSmall
  | deckError
  | unknown
  deriving DecidableEq, Repr

namespace Category

/-- The name of a category. -/
def name : Category → String
  | .executableNotFound => "executable_not_found"
  | .timeout => "timeout"
  | .cancelled => "cancelled"
  | .singularMatrix => "singular_matrix"
  | .dcConvergence => "dc_convergence"
  | .timestepTooSmall => "timestep_too_small"
  | .deckError => "deck_error"
  | .unknown => "unknown"

/-- The phrases that an error about the engine itself holds. -/
def runPhrases : List (String × Category) :=
  [("executable not found", .executableNotFound), ("failed to start", .executableNotFound),
    ("timed out", .timeout), ("cancelled", .cancelled)]

/-- The phrases by which the engine reports failures. -/
def enginePhrases : List (String × Category) :=
  [("singular matrix", .singularMatrix), ("timestep too small", .timestepTooSmall),
    ("no convergence", .dcConvergence), ("gmin stepping failed", .dcConvergence),
    ("source stepping failed", .dcConvergence), ("unknown device", .deckError),
    ("unknown model", .deckError), ("unknown subckt", .deckError),
    ("could not find a valid model", .deckError), ("could not find model", .deckError),
    ("syntax error", .deckError)]

/-- The category of the first phrase that a text holds, in any case. -/
def find? (phrases : List (String × Category)) (s : String) : Option Category :=
  (phrases.find? fun p => holdsWord p.1 s.toList).map (·.2)

/-- The category of a failure: what the error says about the run comes first, then what it says
about the circuit, then what the engine printed. -/
def classify (error printed : String) : Category :=
  ((find? runPhrases error).or
    ((find? enginePhrases error).or (find? enginePhrases printed))).getD .unknown

/-- What happened, in one sentence. -/
def explanation : Category → String
  | .executableNotFound => "ngspice could not be started."
  | .timeout => "The simulation took too long and was stopped."
  | .cancelled => "The simulation was cancelled."
  | .singularMatrix => "The circuit equations could not be solved (singular matrix)."
  | .dcConvergence => "The simulator could not find a stable operating point."
  | .timestepTooSmall => "The transient run could not advance in time."
  | .deckError => "ngspice rejected the generated netlist."
  | .unknown => "The simulation failed for an unexpected reason."

/-- What to do about it. -/
def suggestions : Category → List String
  | .executableNotFound =>
    ["Install ngspice and make sure it is on PATH",
      "Or point NGSPICE_PATH (or ngspice_path in the settings file) at the executable"]
  | .timeout =>
    ["Shorten the transient stop time or use a larger time step",
      "Raise the timeout in the settings file"]
  | .cancelled => []
  | .singularMatrix =>
    ["Check that every wire strip has a path to ground",
      "Make sure no two batteries are connected directly in parallel",
      "Look for parts with only one leg plugged in"]
  | .dcConvergence =>
    ["Check that every node has a DC path to ground",
      "Verify resistor and capacitor values are realistic",
      "Check transistor and LED orientation"]
  | .timestepTooSmall =>
    ["Increase the transient time step",
      "Check for very small capacitors paired with very large resistors"]
  | .deckError =>
    ["Check component values for typos", "Use a device model from the built-in library"]
  | .unknown =>
    ["Verify all components are connected properly",
      "Try a simpler circuit to isolate the problem"]

/-- The message to the user, with the error text as a detail. -/
def userMessage (c : Category) (detail : String) : String :=
  "\n".intercalate <|
    [c.explanation] ++ (if detail.isEmpty then [] else [s!"({detail})"])
    ++ (if c.suggestions.isEmpty then []
      else "\nSuggestions:" :: c.suggestions.map fun s => s!"  - {s}")

end Category

end Breadboard
