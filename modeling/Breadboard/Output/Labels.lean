import Breadboard.Circuit.Basic
import Breadboard.Netlist.NodeMap
import Breadboard.Output.Series

/-!
# Labels

A series is labelled by giving the vector of each node to every net of the node. A node without a
net keeps its vector under a placeholder, and ground is not listed. Instruments read their pins off
the labelled series by net.
-/

namespace Breadboard

/-- What labelling and probing have to report. -/
inductive LabelNotice where
  | unnamedNode (index : Int)
  | notSimulated (designator label net : String)
  deriving DecidableEq, Repr

/-- Vectors over time by net and by the name of a current. -/
structure NetSeries where
  time : List Float
  voltages : List (String × List Float)
  currents : List (String × List Float)
  deriving DecidableEq

namespace NetSeries

/-- The label of a node that has no net. -/
def placeholder (index : Int) : String := s!"node_{index}"

/-- The labels of a node. -/
def labels (m : NodeMap) (index : Int) : List String :=
  match m.netsOf index with
  | [] => [placeholder index]
  | nets => nets

/-- The nodes of a series that are listed, ascending. -/
def listedNodes (s : Series) : List Int := s.nodes.filter (· != 0)

/-- Every label with its vector. -/
def labelled (s : Series) (m : NodeMap) : List (String × List Float) :=
  (listedNodes s).flatMap fun index =>
    (labels m index).map fun name => (name, (s.voltages.lookup index).getD [])

/-- A series by the nets of a node map. -/
def ofSeries (s : Series) (m : NodeMap) : NetSeries :=
  ⟨s.time, Assoc.ofList (labelled s m), s.currents⟩

/-- The nodes of a series that have no net. -/
def unnamed (s : Series) (m : NodeMap) : List LabelNotice :=
  ((listedNodes s).filter fun index => (m.netsOf index).isEmpty).map .unnamedNode

/-- The vector of a net in any spelling; ground is zero throughout. -/
def get? (l : NetSeries) (net : String) : Option (List Float) :=
  let name := Net.canonical net
  if name = Net.ground then some (l.time.map fun _ => 0.0) else l.voltages.lookup name

/-- The JSON object of a labelled series. -/
def toJson (l : NetSeries) : Json :=
  let vector := fun values : List Float => Json.list (values.map Json.float)
  .object [("time", vector l.time),
    ("voltages", .object (l.voltages.map fun v => (v.1, vector v.2))),
    ("currents", .object (l.currents.map fun v => (v.1, vector v.2)))]

end NetSeries

namespace LabelNotice

/-- The wording of a notice. -/
def message : LabelNotice → String
  | .unnamedNode index =>
    s!"Node {index} has no net name in the node map; reported as "
      ++ s!"'{NetSeries.placeholder index}'"
  | .notSimulated designator label net =>
    s!"Probe {designator} pin {label}: net '{net}' was not simulated"

end LabelNotice

namespace Probe

/-- The reading of a pin. -/
def readPin (l : NetSeries) (p : Pin) : Option (List Float) :=
  if Net.canonical p.net == "" then none else l.get? p.net

/-- The readings of an instrument, pin by pin. -/
def readings (l : NetSeries) (c : Component) : List (String × Option (List Float)) :=
  c.pins.map fun p => (p.1, readPin l p.2)

/-- The pins of an instrument that are wired to a net without a vector. -/
def missing (l : NetSeries) (c : Component) : List LabelNotice :=
  (c.pins.filter fun p => Net.canonical p.2.net != "" && (readPin l p.2).isNone).map fun p =>
    .notSimulated c.designator p.1 (Net.canonical p.2.net)

/-- The readings of all instruments, by designator; of two with one designator the later counts. -/
def readAll (components : List Component) (l : NetSeries) :
    List (String × List (String × Option (List Float))) :=
  Assoc.ofList <|
    (components.filter Component.isInstrument).map fun c => (c.designator, readings l c)

/-- What probing has to report. -/
def notices (components : List Component) (l : NetSeries) : List LabelNotice :=
  (components.filter Component.isInstrument).flatMap (missing l)

end Probe

end Breadboard
