import Breadboard.Circuit.Editor
import Breadboard.Decimal.Binary

/-!
# Valid circuits

The check that a JSON value has the shape of a circuit before it is read as one: a list of
components with an id and a kind each, no id twice, and pins that name nets. The first fault in
order is reported.
-/

namespace Breadboard

/-- What is wrong with a value that is no circuit. -/
inductive InvalidCircuit where
  | notAnObject
  | noComponents
  | componentNotAnObject (number : Nat)
  | missingField (number : Nat) (field : String)
  | duplicateId (id : String)
  | compoundId
  | invalidPins (id : String)
  | invalidPin (id label : String)
  | invalidNet (id label : String)
  deriving DecidableEq, Repr

/-- The wording of a fault. -/
def InvalidCircuit.message : InvalidCircuit → String
  | .notAnObject => "File does not contain a valid circuit object."
  | .noComponents => "Missing or invalid 'components' list."
  | .componentNotAnObject n => s!"Component #{n} is not an object."
  | .missingField n field => s!"Component #{n} is missing required field '{field}'."
  | .duplicateId id => s!"Duplicate component id '{id}'."
  | .compoundId => "A component id must not be a list or an object."
  | .invalidPins id => s!"Component '{id}' has invalid pin data."
  | .invalidPin id label => s!"Component '{id}' pin '{label}' must be an object or a net name."
  | .invalidNet id label => s!"Component '{id}' pin '{label}' has a non-string net."

/-- What an id is compared by: numbers by their value, whether they are written as whole numbers,
as floats or as truth values. -/
inductive IdKey where
  | null
  | whole (n : Int)
  | fraction (f : Float)
  | text (s : String)
  deriving DecidableEq

namespace IdKey

/-- The whole number that a float is. -/
def wholeOf? (f : Float) : Option Int :=
  if f.isFinite then
    let b := Binary.ofFloat f
    let (num, den) := Binary.quotient b.mantissa b.exponent 0
    if num % den = 0 then
      let n : Int := (num / den : Nat)
      some (if b.negative then -n else n)
    else none
  else none

/-- The key of an id; lists and objects have none. -/
def ofJson? : Json → Option IdKey
  | .null => some .null
  | .bool b => some (.whole (if b then 1 else 0))
  | .int n => some (.whole n)
  | .float f => some (((wholeOf? f).map IdKey.whole).getD (.fraction f))
  | .text s => some (.text s)
  | .list _ => none
  | .object _ => none

end IdKey

namespace InvalidCircuit

/-- The fault of one pin. -/
def checkPin (id label : String) : Json → Except InvalidCircuit Unit
  | .null => .ok ()
  | .text _ => .ok ()
  | .object fields =>
    match Json.fieldD fields "net" with
    | .null => .ok ()
    | .text _ => .ok ()
    | .int _ => .ok ()
    | .bool _ => .ok ()
    | _ => .error (.invalidNet id label)
  | _ => .error (.invalidPin id label)

/-- The fault of a pin table. -/
def checkPins (id : String) : Json → Except InvalidCircuit Unit
  | .object pins => pins.forM fun p => checkPin id p.1 p.2
  | _ => .error (.invalidPins id)

/-- The fault of the component with this number, where `seen` are the ids before it; otherwise the
key of its id. -/
def checkComponent (seen : List IdKey) (number : Nat) : Json → Except InvalidCircuit IdKey
  | .object fields =>
    match Json.field? fields "id" with
    | none => .error (.missingField number "id")
    | some id =>
      match Json.field? fields "kind" with
      | none => .error (.missingField number "kind")
      | some _ =>
        match IdKey.ofJson? id with
        | none => .error .compoundId
        | some key =>
          if seen.contains key then .error (.duplicateId id.display)
          else do
            checkPins id.display ((Json.field? fields "pins").getD (.object []))
            return key
  | _ => .error (.componentNotAnObject number)

/-- The first fault of the components from this number on. -/
def checkComponents (seen : List IdKey) (number : Nat) : List Json → Except InvalidCircuit Unit
  | [] => .ok ()
  | j :: rest =>
    match checkComponent seen number j with
    | .error e => .error e
    | .ok key => checkComponents (key :: seen) (number + 1) rest

/-- The first fault of a value that is to be a circuit. -/
def check : Json → Except InvalidCircuit Unit
  | .object fields =>
    match Json.field? fields "components" with
    | some (.list items) => checkComponents [] 1 items
    | _ => .error .noComponents
  | _ => .error .notAnObject

end InvalidCircuit

end Breadboard
