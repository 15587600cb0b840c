import Breadboard.Assoc
import Breadboard.Circuit.Net
import Breadboard.Json.Printer

/-!
# Node maps

A node map gives every net that takes part in a deck its node number. Nets that a junction joined
share a number, and ground has an entry in every map.
-/

namespace Breadboard

/-- Nets and their node numbers, in the order in which the nets were first met. -/
structure NodeMap where
  entries : List (String × Int)
  deriving DecidableEq, Repr

namespace NodeMap

/-- The map with these entries, and with ground as node 0 unless they say otherwise. -/
def ofEntries (entries : List (String × Int)) : NodeMap :=
  let entries := Assoc.ofList entries
  ⟨if (Assoc.keys entries).contains Net.ground then entries else entries ++ [(Net.ground, 0)]⟩

/-- The number of a net by its exact name. -/
def get? (m : NodeMap) (name : String) : Option Int := m.entries.lookup name

/-- The number of a net in any spelling. -/
def nodeOf (m : NodeMap) (net : String) : Option Int := m.get? (Net.canonical net)

/-- Whether a name is in the map as it stands. -/
def contains (m : NodeMap) (name : String) : Bool := (Assoc.keys m.entries).contains name

/-- How many nets the map has. -/
def size (m : NodeMap) : Nat := m.entries.length

/-- The numbers in use other than 0, ascending and each once. -/
def indices (m : NodeMap) : List Int :=
  ((m.entries.map (·.2)).filter (· != 0)).eraseDups.mergeSort (· ≤ ·)

/-- The nets of a node, in order. -/
def netsOf (m : NodeMap) (index : Int) : List String :=
  (m.entries.filter (·.2 == index)).map (·.1)

/-- Every number in use with its nets, in the order in which the numbers were first met. -/
def byNode (m : NodeMap) : List (Int × List String) :=
  (m.entries.map (·.2)).eraseDups.map fun index => (index, m.netsOf index)

/-- The map as a JSON object. -/
def toJson (m : NodeMap) : Json := .object (m.entries.map fun e => (e.1, .int e.2))

/-- The map as it appears in messages. -/
def describe (m : NodeMap) : String := "NodeMap(" ++ m.toJson.literal ++ ")"

end NodeMap

end Breadboard
