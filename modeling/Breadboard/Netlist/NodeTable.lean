import Breadboard.Netlist.NodeMap

/-!
# Numbering nodes

A node table numbers nets while a deck is assembled. A net gets the next free number when it is
first entered, ground is node 0 from the start, and a junction points further nets at a number
that is in use.
-/

namespace Breadboard

/-- The nets numbered so far. -/
structure NodeTable where
  entries : List (String × Int)
  deriving DecidableEq, Repr

namespace NodeTable

/-- The table that knows ground alone. -/
def start : NodeTable := ⟨[(Net.ground, 0)]⟩

/-- The greatest number in use. -/
def top (t : NodeTable) : Int := (t.entries.map (·.2)).foldl max 0

/-- The number of a net, if it has one. -/
def lookup (t : NodeTable) (net : String) : Option Int := t.entries.lookup (Net.canonical net)

/-- The number of a net, a new one if it has none. A blank net reads as ground. -/
def enter (t : NodeTable) (net : String) : Int × NodeTable :=
  let name := Net.canonical net
  if name = "" ∨ name = Net.ground then (0, t)
  else
    match t.entries.lookup name with
    | some index => (index, t)
    | none => (t.top + 1, ⟨t.entries ++ [(name, t.top + 1)]⟩)

/-- Nets entered one after another. -/
def enterAll (t : NodeTable) : List String → List Int × NodeTable
  | [] => ([], t)
  | net :: rest =>
    let (index, t) := t.enter net
    let (indices, t) := t.enterAll rest
    (index :: indices, t)

/-- Points a net at a number, whatever it had; ground and blanks stay. -/
def assign (t : NodeTable) (net : String) (index : Int) : NodeTable :=
  let name := Net.canonical net
  if name = "" ∨ name = Net.ground then t else ⟨Assoc.put name index t.entries⟩

/-- Whether a net has a number. -/
def contains (t : NodeTable) (net : String) : Bool := (t.lookup net).isSome

/-- How many nets have a number. -/
def size (t : NodeTable) : Nat := t.entries.length

/-- The map of the nets numbered so far. -/
def toNodeMap (t : NodeTable) : NodeMap := ⟨t.entries⟩

end NodeTable

end Breadboard
