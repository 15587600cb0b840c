import Breadboard.Netlist.Assembly
import Breadboard.Settings

/-!
# Decks

A deck is the text handed to the engine: title, device lines, model library, solver options and a
control block that asks for an operating point and a transient run over the nodes of its map. Every
deck ends with exactly one end line.
-/

namespace Breadboard

open Text

namespace Deck

/-- A text written backwards, without the end lines it ends in; an end line starts on a new
line. -/
def dropEnds (reversed : List Char) : List Char :=
  match _h : reversed.dropWhile isBlank with
  | d :: n :: e :: dot :: rest =>
    if foldsTo 'd' d && foldsTo 'n' n && foldsTo 'e' e && dot == '.'
        && (rest.takeWhile isBlank).contains '\n' then dropEnds rest
    else d :: n :: e :: dot :: rest
  | cs => cs
termination_by reversed.length
decreasing_by
  have := (List.dropWhile_sublist isBlank (l := reversed)).length_le
  simp only [_h, List.length_cons] at this
  omega

/-- A text without trailing blanks and end lines, and without leading newlines. -/
def body (cs : List Char) : List Char :=
  trimEnd ((dropEnds ('\n' :: cs).reverse).reverse.dropWhile (· == '\n'))

/-- A text with exactly one end line, at its end. -/
def endOnce (s : String) : String := String.ofList (body s.toList) ++ "\n.end\n"

/-- The lines that set the solver up. -/
def solverOptions : List String :=
  [".options reltol=1e-3 abstol=1e-12 vntol=1e-6", ".options gmin=1e-12 itl1=100 itl2=50",
    ".options temp=27 tnom=27"]

/-- The vectors printed: the voltage of every node but ground. -/
def vectors (m : NodeMap) : List String := m.indices.map fun index => s!"v({index})"

/-- The transient run. -/
def transientCommand (s : Settings) : String :=
  s!"tran {s.tranStep} {s.tranStop}" ++ (if s.useInitialConditions then " uic" else "")

/-- The control block. -/
def controlBlock (s : Settings) (m : NodeMap) : List String :=
  ["* Analysis", ".control", "set filetype=ascii", "op", "print all", transientCommand s]
  ++ (if (vectors m).isEmpty then [] else ["print time " ++ " ".intercalate (vectors m)])
  ++ [".endc"]

/-- All lines of a deck but the last. -/
def lines (s : Settings) (deviceLines : List String) (m : NodeMap) : List String :=
  [s.title, ""] ++ deviceLines
  ++ ["", "* --- Device models ---"] ++ DeviceModel.library.map (·.2)
  ++ ["", "* Solver options for convergence stability"] ++ solverOptions
  ++ [""] ++ controlBlock s m

end Deck

/-- A deck, the device lines in it, the node map that numbered it, and what there is to say about
it. -/
structure Deck where
  text : String
  deviceLines : List DeviceLine
  nodeMap : NodeMap
  diagnostics : List String
  deriving DecidableEq

namespace Deck

/-- The deck of the components of a circuit. -/
def ofComponents (components : List Component) (s : Settings) : Except JunctionConflict Deck :=
  match Assembly.start.run components with
  | .error e => .error e
  | .ok (a, deviceLines) =>
    let nodeMap := a.nodes.toNodeMap
    .ok {
      text := endOnce ("\n".intercalate (lines s (deviceLines.map DeviceLine.text) nodeMap))
      deviceLines, nodeMap
      diagnostics := (a.diagnostics ++ a.undefinedModels).map Diagnostic.message }

end Deck

end Breadboard
