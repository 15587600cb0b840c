import Breadboard.Circuit.Basic
import Breadboard.Netlist.NodeTable

/-!
# Junctions

All nets wired to a junction are one node. The node is the one that some of the nets already have,
or a new one; nets that already have different nodes cannot be joined, for lines that name those
nodes have been written.
-/

namespace Breadboard

/-- A junction whose nets already have different nodes. -/
structure JunctionConflict where
  junction : String
  nodes : List (String × Int)
  deriving DecidableEq, Repr

/-- The junction and its nets with the nodes they have. -/
def JunctionConflict.message (e : JunctionConflict) : String :=
  let nodes := ", ".intercalate (e.nodes.map fun n => s!"{n.1}=node {n.2}")
  s!"Junction {e.junction} joins nets already emitted on different nodes ({nodes}); "
    ++ "place the junction before the devices that use these nets"

namespace Junction

/-- The nets that a junction joins: canonical, each once, ground and blanks left out. -/
def nets (c : Component) : List String :=
  ((c.nets.map Net.canonical).filter fun n => n != "" && n != Net.ground).eraseDups

/-- The nets that already have a node, with their nodes. -/
def numbered (t : NodeTable) (nets : List String) : List (String × Int) :=
  nets.filterMap fun net => (t.lookup net).map (net, ·)

/-- Whether two nodes in the list differ. -/
def disagree (nodes : List (String × Int)) : Bool :=
  match nodes with
  | [] => false
  | n :: rest => rest.any (·.2 != n.2)

/-- The net whose node the others take. -/
def primary (t : NodeTable) (first : String) (nets : List String) : String :=
  match numbered t nets with
  | [] => first
  | n :: _ => n.1

/-- The table with the other nets pointed at the node of the primary one. -/
def join (t : NodeTable) (primary : String) (index : Int) (nets : List String) : NodeTable :=
  nets.foldl (fun t net => if net = primary then t else t.assign net index) t

/-- Joins the nets of a junction and gives their node; a junction of fewer than two nets joins
nothing. -/
def merge (t : NodeTable) (c : Component) : Except JunctionConflict (NodeTable × Option Int) :=
  match nets c with
  | first :: second :: rest =>
    let all := first :: second :: rest
    let nodes := numbered t all
    if disagree nodes then .error ⟨c.designator, nodes⟩
    else
      let main := primary t first all
      let (index, entered) := t.enter main
      .ok (join entered main index all, some index)
  | _ => .ok (t, none)

end Junction

end Breadboard
