import Breadboard.Netlist.DeviceModel
import Breadboard.Netlist.Junction
import Breadboard.Quantity

/-!
# Assembling a netlist

The components of a circuit are taken in order. A device whose pins are wired becomes a line and
numbers its nets, a junction joins nets, an instrument does nothing, and all else is skipped with a
notice.
-/

namespace Breadboard

/-- What follows the nodes of a device line. -/
inductive LineTail where
  | value (v : Float)
  | source (v : Float)
  | model (name : String)
  deriving DecidableEq

/-- A device line: the device, its designator, the nodes of its pins, and its value or model. -/
structure DeviceLine where
  device : Device
  designator : String
  nodes : List Int
  tail : LineTail
  deriving DecidableEq

namespace DeviceLine

/-- The name of the device in the deck. -/
def name (l : DeviceLine) : String := l.device.letter ++ l.designator

/-- The text of a tail. -/
def tailText : LineTail → String
  | .value v => Quantity.forDeck v
  | .source v => "DC " ++ Quantity.forDeck v
  | .model name => name

/-- The text of a line. -/
def text (l : DeviceLine) : String :=
  l.name ++ " " ++ " ".intercalate (l.nodes.map toString) ++ " " ++ tailText l.tail

/-- The model a line refers to. -/
def model? (l : DeviceLine) : Option String :=
  match l.tail with
  | .model name => some name
  | _ => none

end DeviceLine

/-- Why a component has no line, or what is wrong with a line. -/
inductive Diagnostic where
  | unsupported (designator kindWord : String)
  | unwired (designator : String) (pins : List String)
  | undefinedModel (name : String)
  deriving DecidableEq, Repr

namespace Diagnostic

/-- The reason for which a component is skipped. -/
def reason : Diagnostic → String
  | .unsupported _ word => s!"unsupported component kind '{word}'"
  | .unwired _ pins => "pin(s) " ++ ", ".intercalate pins ++ " not connected"
  | .undefinedModel name => s!"Model '{name}' has no definition in the model library"

/-- The wording of a diagnostic. -/
def message (d : Diagnostic) : String :=
  match d with
  | .unsupported designator _ => s!"Skipped {designator}: {d.reason}"
  | .unwired designator _ => s!"Skipped {designator}: {d.reason}"
  | .undefinedModel _ => d.reason

end Diagnostic

namespace Device

/-- The value of a device that declares none that can be read. -/
def defaultValue : Device → Float
  | .resistor => 1e3
  | .capacitor => 1e-6
  | .voltageSource => 5.0
  | _ => 0.0

/-- The value of a component, the default of its device if it cannot be read. -/
def valueOf (d : Device) (c : Component) : Float :=
  (c.value.bind Quantity.read).getD d.defaultValue

/-- The value or model of a component as a device. -/
def tail (d : Device) (c : Component) : LineTail :=
  match d with
  | .resistor => .value (d.valueOf c)
  | .capacitor => .value (d.valueOf c)
  | .voltageSource => .source (d.valueOf c)
  | .diode => .model (DeviceModel.declared c "D1N4148")
  | .led => .model (DeviceModel.declared c "LED_GENERIC")
  | .transistor => .model (DeviceModel.family c)

/-- The required pins of a component that are not wired. -/
def unwiredPins (d : Device) (c : Component) : List String :=
  d.requiredPins.filter fun label => Net.canonical (c.netOf label) == ""

end Device

/-- The state of an assembly: the nets numbered, the diagnostics and the models used so far. -/
structure Assembly where
  nodes : NodeTable
  diagnostics : List Diagnostic
  models : List String
  deriving DecidableEq

namespace Assembly

/-- Before the first component. -/
def start : Assembly := ⟨.start, [], []⟩

/-- One more diagnostic. -/
def report (a : Assembly) (d : Diagnostic) : Assembly :=
  { a with diagnostics := a.diagnostics ++ [d] }

/-- One more model, unless it was used before. -/
def use (a : Assembly) (model : Option String) : Assembly :=
  match model with
  | none => a
  | some name => if a.models.contains name then a else { a with models := a.models ++ [name] }

/-- The line of a device, if all its pins are wired. -/
def placeDevice (a : Assembly) (d : Device) (c : Component) : Assembly × Option DeviceLine :=
  match d.unwiredPins c with
  | [] =>
    let (indices, nodes) := a.nodes.enterAll (d.requiredPins.map c.netOf)
    let line : DeviceLine := ⟨d, c.designator, indices, d.tail c⟩
    ({ a with nodes }.use line.model?, some line)
  | pins => (a.report (.unwired c.designator pins), none)

/-- One component. -/
def place (a : Assembly) (c : Component) :
    Except JunctionConflict (Assembly × Option DeviceLine) :=
  match c.kind with
  | .displayOnly => .ok (a, none)
  | .junction =>
    match Junction.merge a.nodes c with
    | .error e => .error e
    | .ok (nodes, _) => .ok ({ a with nodes }, none)
  | .unsupported => .ok (a.report (.unsupported c.designator c.kindWord), none)
  | .device d => .ok (a.placeDevice d c)

/-- The components in order: the state after them and their lines. -/
def run (a : Assembly) : List Component → Except JunctionConflict (Assembly × List DeviceLine)
  | [] => .ok (a, [])
  | c :: rest =>
    match a.place c with
    | .error e => .error e
    | .ok (b, line) =>
      match b.run rest with
      | .error e => .error e
      | .ok (last, lines) => .ok (last, line.toList ++ lines)

/-- The models used that the library does not define. -/
def undefinedModels (a : Assembly) : List Diagnostic :=
  (a.models.filter (! DeviceModel.isDefined ·)).map Diagnostic.undefinedModel

end Assembly

end Breadboard
