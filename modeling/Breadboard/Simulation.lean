import Breadboard.Diagnosis
import Breadboard.Engine
import Breadboard.Netlist.Deck
import Breadboard.OhmsLaw
import Breadboard.Output.Decode
import Breadboard.Output.Labels

/-!
# Simulations

A simulation generates the deck of a circuit, runs the engine on it, decodes what it printed and
labels it with nets. Failures on the way are results too; all that escapes are the errors of a run
and a node with too many digits. Ohm's law stands in when a run that succeeded printed nothing that
can be decoded.
-/

namespace Breadboard

/-- The result of a simulation. -/
structure SimulationReport where
  success : Bool
  transient : Option NetSeries := none
  operatingPoint : List (String × Float) := []
  error : String := ""
  warnings : List String := []
  netlist : String := ""
  rawOutput : Option String := some ""
  nodeMap : List (String × Int) := []
  usedFallback : Bool := false
  probes : List (String × List (String × Option (List Float))) := []
  deriving DecidableEq

namespace SimulationReport

/-- A failure after a deck was generated. -/
def failure (deck : Deck) (rawOutput : Option String) (error : String) : SimulationReport where
  success := false
  error := error
  warnings := deck.diagnostics
  netlist := deck.text
  rawOutput := rawOutput
  nodeMap := deck.nodeMap.entries

/-- The JSON object of a result, without the raw output. -/
def toJson (r : SimulationReport) : Json :=
  let vector := fun values : List Float => Json.list (values.map Json.float)
  let pin := fun p : String × Option (List Float) => (p.1, (p.2.map vector).getD .null)
  .object [("success", .bool r.success),
    ("transient", (r.transient.map NetSeries.toJson).getD .null),
    ("operating_point", .object (r.operatingPoint.map fun v => (v.1, .float v.2))),
    ("error", .text r.error),
    ("warnings", .list (r.warnings.map Json.text)),
    ("node_map", .object (r.nodeMap.map fun e => (e.1, .int e.2))),
    ("used_fallback", .bool r.usedFallback),
    ("probes", .object (r.probes.map fun p => (p.1, .object (p.2.map pin)))),
    ("netlist", .text r.netlist)]

end SimulationReport

namespace Simulation

/-- What is said when the analytic fallback answers. -/
def fallbackNotice : String :=
  "ngspice output held no usable data; values come from the analytic fallback"

/-- The error of a run whose output holds nothing, and for which the fallback gives a reason. -/
def noResults (reason : String) : String :=
  s!"No simulation results could be decoded from the ngspice output ({reason})"

/-- The result for an operating point and perhaps a series: the series is labelled and the
instruments are read off it. -/
def label (components : List Component) (deck : Deck) (rawOutput : Option String)
    (usedFallback : Bool) (operatingPoint : List (String × Float)) (series : Option Series) :
    SimulationReport :=
  let warnings := deck.diagnostics ++ if usedFallback then [fallbackNotice] else []
  let base : SimulationReport :=
    { success := true, operatingPoint, warnings, netlist := deck.text, rawOutput,
      nodeMap := deck.nodeMap.entries, usedFallback }
  match series with
  | none => base
  | some s =>
    let labeled := NetSeries.ofSeries s deck.nodeMap
    let notices := NetSeries.unnamed s deck.nodeMap ++ Probe.notices components labeled
    { base with
      transient := some labeled
      warnings := warnings ++ notices.map LabelNotice.message
      probes := Probe.readAll components labeled }

/-- The result for the output of a run on a deck. A deck that the fallback cannot even read is an
error. -/
def decode (components : List Component) (s : Settings) (deck : Deck)
    (rawOutput : Option String) : Except Numeral.TooManyDigits SimulationReport :=
  match Decoded.ofOutput (rawOutput.getD "") s.minPoints with
  | .error e => .ok (.failure deck rawOutput s!"Result parsing failed: {e.message}")
  | .ok decoded =>
    if decoded.isEmpty then
      match OhmsLaw.solve deck.text with
      | .error (.tooManyDigits e) => .error e
      | .error refusal => .ok (.failure deck rawOutput (noResults refusal.message))
      | .ok loop =>
        .ok (label components deck rawOutput true loop.operatingPoint (some loop.series))
    else .ok (label components deck rawOutput false decoded.operatingPoint decoded.series)

/-- The runner that settings ask for. -/
def runner (s : Settings) : Runner := ⟨s.enginePath, s.timeout⟩

/-- An error that escapes a simulation: that of the run, or a node with too many digits. -/
inductive Fault where
  | run (e : RunFault)
  | tooManyDigits (e : Numeral.TooManyDigits)
  deriving DecidableEq

/-- The wording of an error. -/
def Fault.message : Fault → String
  | .run e => e.message
  | .tooManyDigits e => e.message

/-- A simulation: the result, the run of the engine if there was one, and the runner after it. -/
structure Outcome where
  result : Except Fault SimulationReport
  run : Option Run
  runner : Runner

/-- The failure to generate a deck. -/
def conflictResult (e : JunctionConflict) : SimulationReport :=
  { success := false, error := s!"Netlist generation failed: {e.message}" }

/-- The result of a run on a deck. -/
def conclude (components : List Component) (s : Settings) (deck : Deck) (run : Run) :
    Except Fault SimulationReport :=
  match run.outcome with
  | .error e => .error (.run e)
  | .ok ended =>
    if ended.success then
      (decode components s deck (some ended.stdout)).mapError .tooManyDigits
    else
      let category := Category.classify ended.error ended.stdout
      .ok (.failure deck (some ended.stdout) (category.userMessage ended.error))

/-- Simulates a circuit. -/
def simulate (components : List Component) (s : Settings) (r : Runner) (e : Engine) : Outcome :=
  match Deck.ofComponents components s with
  | .error conflict => ⟨.ok (conflictResult conflict), none, r⟩
  | .ok deck =>
    let run := r.run e deck.text
    ⟨conclude components s deck run, some run, r.located e⟩

end Simulation

end Breadboard
