import Breadboard.Json.Reader
import Breadboard.Json.Printer
import Breadboard.Text.Utf8

/-!
# Settings

What the user may set: the title of the deck, the transient run, the engine, its time limit, and
how many points a transient result needs. Settings come from a JSON object whose unknown fields are
ignored.
-/

namespace Breadboard

/-- The settings of a simulation. -/
structure Settings where
  title : String
  tranStep : String
  tranStop : String
  useInitialConditions : Bool
  timeout : Float
  minPoints : Int
  enginePath : Option String
  deriving DecidableEq

/-- Why settings are refused. -/
inductive SettingsError where
  | boolean (key : String)
  | invalid (key : String) (value : Json)
  | outOfRange
  | timeoutNotPositive
  | minPointsNegative
  deriving DecidableEq

/-- The wording of an error. -/
def SettingsError.message : SettingsError → String
  | .boolean key => s!"Setting '{key}' must not be a boolean"
  | .invalid key value => s!"Setting '{key}' has invalid value {value.literal}"
  | .outOfRange => "int too large to convert to float"
  | .timeoutNotPositive => "timeout must be positive"
  | .minPointsNegative => "min_transient_points must not be negative"

namespace Settings

/-- The settings of one who sets nothing. -/
def defaults : Settings where
  title := "Breadboard Circuit - Generated SPICE Netlist"
  tranStep := "0.1us"
  tranStop := "5ms"
  useInitialConditions := true
  timeout := 60.0
  minPoints := 100
  enginePath := none

/-- The names of the settings. -/
def keys : List String :=
  ["title", "tran_step", "tran_stop", "use_initial_conditions", "timeout",
    "min_transient_points", "ngspice_path"]

/-- The text of a setting. -/
def textOf (key : String) : Json → Except SettingsError String
  | .text s => .ok s
  | j => .error (.invalid key j)

/-- One field; every value but that of a switch may be anything except a truth value. -/
def setField (s : Settings) (key : String) (value : Json) : Except SettingsError Settings :=
  if key = "use_initial_conditions" then
    match value with
    | .bool b => .ok { s with useInitialConditions := b }
    | j => .error (.invalid key j)
  else
    match value with
    | .bool _ => if keys.contains key then .error (.boolean key) else .ok s
    | j =>
      if key = "title" then do return { s with title := ← textOf key j }
      else if key = "tran_step" then do return { s with tranStep := ← textOf key j }
      else if key = "tran_stop" then do return { s with tranStop := ← textOf key j }
      else if key = "timeout" then
        match j with
        | .float f => .ok { s with timeout := f }
        | .int n =>
          match Decimal.floatOfInt? n with
          | some f => .ok { s with timeout := f }
          | none => .error .outOfRange
        | j => .error (.invalid key j)
      else if key = "min_transient_points" then
        match j with
        | .int n => .ok { s with minPoints := n }
        | j => .error (.invalid key j)
      else if key = "ngspice_path" then
        match j with
        | .null => .ok { s with enginePath := none }
        | .text p => .ok { s with enginePath := some p }
        | j => .error (.invalid key j)
      else .ok s

/-- The settings with the engine path of the environment, if they have none of their own; an empty
path in the environment is none. -/
def withEnvironment (environment : Option String) (s : Settings) : Settings :=
  match s.enginePath with
  | some _ => s
  | none => { s with enginePath := environment.filter (! ·.isEmpty) }

/-- Checks the limits. -/
def checked (s : Settings) : Except SettingsError Settings :=
  if s.timeout ≤ 0.0 then .error .timeoutNotPositive
  else if s.minPoints < 0 then .error .minPointsNegative
  else .ok s

theorem checked_eq_ok_iff {s s' : Settings} :
    s.checked = .ok s' ↔ s' = s ∧ ¬ s.timeout ≤ 0.0 ∧ 0 ≤ s.minPoints := by
  unfold checked
  by_cases htimeout : s.timeout ≤ 0.0
  · simp [htimeout]
  · by_cases hpoints : s.minPoints < 0
    · simp [htimeout, hpoints]
    · simp [htimeout, hpoints, Int.not_lt.mp hpoints, eq_comm]

/-- Settings from the fields of an object, where `environment` is the engine path to fall back
on. -/
def ofFields (environment : Option String) (fields : List (String × Json)) :
    Except SettingsError Settings := do
  let s ← fields.foldlM (fun s f => s.setField f.1 f.2) defaults
  (s.withEnvironment environment).checked

/-- The unknown keys that `ofFields` passes over before it ends or meets an error. -/
def ignoredKeys : List (String × Json) → List String
  | [] => []
  | (key, value) :: rest =>
    if keys.contains key then
      match defaults.setField key value with
      | .ok _ => ignoredKeys rest
      | .error _ => []
    else key :: ignoredKeys rest

end Settings

end Breadboard
