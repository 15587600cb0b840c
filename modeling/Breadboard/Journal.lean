import Breadboard.Simulation
import Breadboard.Text.Quoted

/-!
# The journal

What a simulation writes to the log as it goes along. Each part of a simulation has its log lines
here, as a function of what that part was given and what it gave.
-/

namespace Breadboard

open Text

/-- How much a log line matters. -/
inductive LogLevel where
  | debug
  | info
  | warning
  | error
  deriving DecidableEq, Repr

/-- The name of a level. -/
def LogLevel.name : LogLevel → String
  | .debug => "DEBUG"
  | .info => "INFO"
  | .warning => "WARNING"
  | .error => "ERROR"

/-- Whether a level is logged even when no details are asked for. -/
def LogLevel.always : LogLevel → Bool
  | .debug => false
  | .info => false
  | .warning => true
  | .error => true

/-- A log line: its level, the part of the program that wrote it, and its text. -/
structure LogLine where
  level : LogLevel
  source : String
  text : String
  deriving DecidableEq, Repr

/-- A log line as it is printed. -/
def LogLine.render (l : LogLine) : String := s!"{l.level.name} {l.source}: {l.text}"

namespace Journal

/-- A net that got a new node. -/
def registered (name : String) (index : Int) : LogLine :=
  ⟨.debug, "simulation.node_allocator", s!"Registering net {quoted name} as node {index}"⟩

/-- The nets that are in a table and not in the one before it. -/
def newNets (before after : NodeTable) : List LogLine :=
  (after.entries.drop before.size).map fun e => registered e.1 e.2

/-- A net that a junction pointed at a node. -/
def aliased (name : String) (index : Int) : LogLine :=
  ⟨.debug, "simulation.node_allocator",
    s!"Aliasing net {quoted name} to node {index} (was None)"⟩

/-- A net that a junction joined to another. -/
def connected (junction net main : String) (index : Int) : LogLine :=
  ⟨.debug, "simulation.junction_resolver",
    s!"Junction {junction}: connecting {net} to {main} (node {index})"⟩

/-- The lines of a junction, in front of which the table was `before`. -/
def junction (before : NodeTable) (c : Component) : List LogLine :=
  match Junction.merge before c, Junction.nets c with
  | .ok (_, some index), first :: rest =>
    let main := Junction.primary before first (first :: rest)
    (if before.contains main then [] else [registered main index])
    ++ ((first :: rest).filter (· != main)).flatMap fun net =>
      (if before.contains net then [] else [aliased net index])
        ++ [connected c.designator net main index]
  | _, _ => []

/-- The line about the pins of a transistor. -/
def transistor (l : DeviceLine) : List LogLine :=
  match l.device, l.nodes, l.model? with
  | .transistor, [collector, base, emitter], some model =>
    [⟨.debug, "simulation.device_emitter",
      s!"Transistor {l.name}: C=node{collector} B=node{base} E=node{emitter} model={model}"⟩]
  | _, _, _ => []

/-- A component that was skipped. -/
def skipped (d : Diagnostic) : LogLine := ⟨.warning, "simulation.device_emitter", d.message⟩

/-- The lines of one component. -/
def component (before : Assembly) (c : Component) : List LogLine :=
  match c.kind with
  | .displayOnly =>
    [⟨.debug, "simulation.device_emitter",
      s!"Skipping display-only {c.designator} ({c.kindWord})"⟩]
  | .junction => junction before.nodes c
  | _ =>
    match before.place c with
    | .error _ => []
    | .ok (after, line) =>
      newNets before.nodes after.nodes ++ (line.map transistor).getD []
        ++ (after.diagnostics.drop before.diagnostics.length).map skipped

/-- The lines of the components in order, up to a conflict. -/
def components (before : Assembly) : List Component → List LogLine
  | [] => []
  | c :: rest =>
    component before c ++
      match before.place c with
      | .error _ => []
      | .ok (after, _) => components after rest

/-- The lines of a deck's generation. -/
def generation (cs : List Component) (s : Settings) : List LogLine :=
  components .start cs ++
    match Deck.ofComponents cs s with
    | .error _ => []
    | .ok deck =>
      [⟨.info, "simulation.netlist_generator",
        s!"Generated deck with {deck.deviceLines.length} device line(s) and "
          ++ s!"{deck.nodeMap.size} net(s)"⟩]

/-- The lines of a run. -/
def run (e : Engine) (r : Run) : List LogLine :=
  let source := "simulation.ngspice_runner"
  let survived : List LogLine :=
    if r.killed && e.survivesKill then
      [⟨.error, source, s!"ngspice process {e.processId} did not exit after kill"⟩]
    else []
  survived ++
    match r.outcome with
    | .ok .cancelled => [⟨.info, source, "Simulation cancelled"⟩]
    | .ok (.exited code _) =>
      if code = 0 then [] else [⟨.warning, source, s!"ngspice exited with code {code}"⟩]
    | _ => []

/-- The lines of one try to decode a transient result. -/
def attempt (minPoints : Int) (a : Attempt) : List LogLine :=
  let source := "simulation.result_parser"
  (if a.dropped = 0 then []
    else [⟨.debug, source, s!"Tabular decode dropped {a.dropped} row(s)"⟩])
  ++
    match a.points with
    | none => []
    | some n =>
      if minPoints < n then
        [⟨.info, source, s!"Decoded {n} transient points with {a.strategy.name}"⟩]
      else
        [⟨.info, source, s!"Rejected {n}-point transient result from {a.strategy.name} "
          ++ s!"(need more than {minPoints})"⟩]

/-- A line of the simulation as a whole. -/
def whole (level : LogLevel) (text : String) : LogLine :=
  ⟨level, "controllers.simulation_controller", text⟩

/-- The line of an answer by Ohm's law. -/
def fallback (l : OhmsLaw.Loop) : LogLine :=
  ⟨.info, "simulation.fallback_solver",
    s!"Fallback analysis: {Real.general l.volts 6} V across {Real.general l.ohms 6} ohm -> "
      ++ s!"{Real.general l.current 6} A"⟩

/-- The lines of labelling a series. -/
def labelling (s : Series) (m : NodeMap) : List LogLine :=
  (NetSeries.unnamed s m).map fun n => ⟨.warning, "simulation.result_labeler", n.message⟩

/-- The lines of decoding the output of a run. -/
def decoding (s : Settings) (deck : Deck) (output : String) : List LogLine :=
  ((Decoded.search output s.minPoints Strategy.all).1.flatMap (attempt s.minPoints)) ++
    match Decoded.ofOutput output s.minPoints with
    | .error e => [whole .error s!"Result parsing failed: {e.message}"]
    | .ok decoded =>
      if decoded.isEmpty then
        match OhmsLaw.solve deck.text with
        | .error (.tooManyDigits _) => []
        | .error refusal =>
          [whole .info s!"Decode failed and fallback declined: {refusal.message}"]
        | .ok loop => fallback loop :: labelling loop.series deck.nodeMap
      else (decoded.series.map (labelling · deck.nodeMap)).getD []

/-- The lines of a simulation. -/
def simulation (cs : List Component) (s : Settings) (r : Runner) (e : Engine) : List LogLine :=
  generation cs s ++
    match Deck.ofComponents cs s with
    | .error conflict => [whole .warning s!"Netlist generation failed: {conflict.message}"]
    | .ok deck =>
      let done := r.run e deck.text
      run e done ++
        match done.outcome with
        | .error _ => []
        | .ok ended =>
          if ended.success then decoding s deck ended.stdout
          else
            let category := Category.classify ended.error ended.stdout
            [whole .info s!"Simulation failed ({category.name}): {ended.error}"]

end Journal

end Breadboard
