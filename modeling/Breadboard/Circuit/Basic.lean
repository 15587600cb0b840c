import Breadboard.Circuit.Kind
import Breadboard.Circuit.Net
import Breadboard.Json.Basic

/-!
# Circuits

A circuit is a list of components in the order in which nodes are numbered, and a component wires
its pins, in the order of its pin table, to nets by name.
-/

namespace Breadboard

open Text

/-- A pin: the net it is wired to, empty if none, and the editor's polarity mark. -/
structure Pin where
  net : String
  polarity : Json
  deriving DecidableEq

/-- A component of a circuit. -/
structure Component where
  id : String
  ref : String
  kind : Kind
  value : Option String
  model : Option String
  pins : List (String × Pin)
  kindWord : String
  typeWord : String
  deriving DecidableEq

namespace Component

/-- The nets of all pins, in order. -/
def nets (c : Component) : List String := c.pins.map (·.2.net)

/-- The net of a pin, empty if there is no such pin. -/
def netOf (c : Component) (label : String) : String :=
  ((c.pins.lookup label).map Pin.net).getD ""

/-- The kind word, or the name of the kind if the word is empty. -/
def kindName (c : Component) : String := if c.kindWord.isEmpty then c.kind.name else c.kindWord

theorem kindName_of_ne {c : Component} (h : c.kindWord ≠ "") : c.kindName = c.kindWord := by
  unfold kindName
  rw [if_neg (by simpa using h)]

theorem kindName_of_eq {c : Component} (h : c.kindWord = "") : c.kindName = c.kind.name := by
  unfold kindName
  rw [h]
  rfl

theorem kindName_ne_empty (c : Component) : c.kindName ≠ "" := by
  by_cases h : c.kindWord = ""
  · rw [kindName_of_eq h]
    exact c.kind.name_ne_empty
  · rwa [kindName_of_ne h]

/-- The reference of a component, made up from its kind and id if it has none. -/
def designator (c : Component) : String :=
  if c.ref.isEmpty then c.kindName ++ String.ofList (c.id.toList.take 8) else c.ref

/-- Whether a component is an instrument. -/
def isInstrument (c : Component) : Bool := c.kind == .displayOnly

end Component

/-- A circuit: its components in order. -/
structure Circuit where
  components : List Component
  deriving DecidableEq

namespace Circuit

/-- A circuit with one more component. -/
def add (circuit : Circuit) (c : Component) : Circuit := ⟨circuit.components ++ [c]⟩

/-- The first component with this id. -/
def find? (circuit : Circuit) (id : String) : Option Component :=
  circuit.components.find? (·.id == id)

/-- The components of a kind. -/
def withKind (circuit : Circuit) (kind : Kind) : List Component :=
  circuit.components.filter (·.kind == kind)

/-- The spellings of nets that are not blank, in order and each once. -/
def wiredNets (circuit : Circuit) : List String :=
  (circuit.components.flatMap Component.nets).foldl
    (fun seen net => if allBlank net.toList || seen.contains net then seen else seen ++ [net]) []

end Circuit

end Breadboard
