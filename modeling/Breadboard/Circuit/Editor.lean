import Breadboard.Circuit.Basic
import Breadboard.Json.Printer

/-!
# The editor's shape of a circuit

Circuits come from the editor as JSON. Missing fields have defaults, and numbers where text is
expected are taken by their text; only a wrong shape is an error. `Component.toJson` writes a
component back.
-/

namespace Breadboard

/-- What does not have the shape it should. -/
inductive ShapeError where
  | circuit
  | components
  | component
  | pins
  | pin
  | type
  deriving DecidableEq, Repr

namespace Pin

/-- A pin from an object with a net and a polarity, or from a net alone. -/
def ofJson : Json → Except ShapeError Pin
  | .text s => .ok ⟨s, .null⟩
  | .int n => .ok ⟨Json.display (.int n), .null⟩
  | .bool b => .ok ⟨Json.display (.bool b), .null⟩
  | .object fields =>
    let net := match Json.fieldD fields "net" with
      | .null => ""
      | j => j.display
    .ok ⟨net, Json.fieldD fields "polarity"⟩
  | _ => .error .pin

/-- A pin of a pin table, where null is a pin without a net. -/
def ofEntry : Json → Except ShapeError Pin
  | .null => .ok ⟨"", .null⟩
  | j => ofJson j

/-- The object of a pin. -/
def toJson (p : Pin) : Json :=
  .object (("net", .text p.net) :: if p.polarity.isVacant then [] else [("polarity", p.polarity)])

end Pin

namespace Component

/-- The text of an optional field, nothing for null. -/
def text? : Json → Option String
  | .null => none
  | j => some j.display

/-- The text of a field, empty for what says nothing. -/
def textOrEmpty (j : Json) : String := if j.isVacant then "" else j.display

/-- The pin table of a component. -/
def pinsOfJson (j : Json) : Except ShapeError (List (String × Pin)) :=
  if j.isVacant then .ok []
  else
    match j with
    | .object fields => fields.mapM fun f => do return (f.1, ← Pin.ofEntry f.2)
    | _ => .error .pins

/-- The type word of a component. -/
def typeOfJson (j : Json) : Except ShapeError String :=
  if j.isVacant then .ok ""
  else
    match j with
    | .text s => .ok s
    | _ => .error .type

/-- A component from its object, as it comes from the reader of JSON: no whole number in it has more
than 4300 digits, so that every value has a text. -/
def ofJson : Json → Except ShapeError Component
  | .object fields => do
    let kindWord := ((Json.field? fields "kind").getD (.text "")).display
    let pins ← pinsOfJson (Json.fieldD fields "pins")
    let typeWord ← typeOfJson (Json.fieldD fields "type")
    return {
      id := ((Json.field? fields "id").getD (.text "")).display
      ref := textOrEmpty (Json.fieldD fields "ref")
      kind := Kind.ofWords kindWord typeWord
      value := text? (Json.fieldD fields "value")
      model := text? (Json.fieldD fields "model")
      pins, kindWord, typeWord }
  | _ => .error .component

/-- A field that is left out when there is nothing to say. -/
def optional (name : String) : Option String → List (String × Json)
  | none => []
  | some s => [(name, .text s)]

/-- The object of a component. -/
def toJson (c : Component) : Json :=
  .object <|
    [("id", .text c.id), ("ref", .text c.ref), ("kind", .text c.kindName),
      ("pins", .object (c.pins.map fun p => (p.1, p.2.toJson)))]
    ++ optional "value" c.value ++ optional "model" c.model
    ++ optional "type" (if c.typeWord.isEmpty then none else some c.typeWord)

/-- The component as it appears in messages: its designator, its kind and its pins. -/
def describe (c : Component) : String :=
  let pins := Json.literal (.list (c.pins.map fun p => .text p.1))
  s!"ComponentData({c.designator}, {c.kind.name}, pins={pins})"

end Component

namespace Circuit

/-- The items of the component list. -/
def itemsOfJson : Json → Except ShapeError (List Json)
  | .list items => .ok items
  | .text s => if s.isEmpty then .ok [] else .error .component
  | .object fields => if fields.isEmpty then .ok [] else .error .component
  | _ => .error .components

/-- A circuit from its object. -/
def ofJson : Json → Except ShapeError Circuit
  | .object fields => do
    let items ← itemsOfJson ((Json.field? fields "components").getD (.list []))
    return ⟨← items.mapM Component.ofJson⟩
  | _ => .error .circuit

/-- The object of a circuit. -/
def toJson (circuit : Circuit) : Json :=
  .object [("components", .list (circuit.components.map Component.toJson))]

end Circuit

end Breadboard
