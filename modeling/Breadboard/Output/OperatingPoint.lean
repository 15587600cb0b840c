import Breadboard.Assoc
import Breadboard.Decimal.Numeral
import Breadboard.Text.Fold
import Breadboard.Text.Lines
import Breadboard.Text.Lower

/-!
# Operating points

The operating point is printed as lines that give a quantity and its value: a node voltage with or
without an equals sign, a current, or the current of a branch. The last value of a quantity counts.
-/

namespace Breadboard

open Text Numeral

namespace OperatingPoint

/-- A measured quantity: the voltage of a node or the current of a device, in small letters. -/
inductive Quantity where
  | voltage (node : String)
  | current (device : String)
  deriving DecidableEq, Repr

/-- The name of a quantity in results. -/
def Quantity.name : Quantity → String
  | .voltage node => "v_" ++ node
  | .current device => "i_" ++ device

/-- What stands in brackets behind this letter at the start of a text, and what follows. -/
def bracketed (letter : String) (cs : List Char) : Option (List Char × List Char) := do
  let inside ← skipWord (letter ++ "(").toList cs
  match inside.takeWhile (· != ')'), inside.dropWhile (· != ')') with
  | [], _ => none
  | name, ')' :: rest => some (name, rest)
  | _, _ => none

/-- The numeral at the start of a text, blanks before it aside, and what follows. -/
def numeral (cs : List Char) : Option (Decimal × List Char) := scan (trimStart cs)

/-- The numeral behind an equals sign. -/
def equated (cs : List Char) : Option Decimal :=
  match trimStart cs with
  | '=' :: rest => (numeral rest).map (·.1)
  | _ => none

/-- A name in brackets that is equated to a number. -/
def assignment (letter : String) (cs : List Char) : Option (List Char × Decimal) := do
  let (name, rest) ← bracketed letter cs
  return (name, ← equated rest)

/-- A whole line that gives a voltage without an equals sign. -/
def listing (line : List Char) : Option (List Char × Decimal) := do
  let (name, rest) ← bracketed "v" (trimStart line)
  if rest.head?.any isBlank then
    let (d, tail) ← numeral rest
    if allBlank tail then some (name, d) else none
  else none

/-- A device name, the word for its branch, and a number, with an equals sign or without. -/
def branch (cs : List Char) : Option (List Char × Decimal) :=
  let inName := fun c => !(c == '#' || isBlank c)
  match cs.takeWhile inName with
  | [] => none
  | name => do
    let rest := trimStart (← skipWord "#branch".toList (cs.dropWhile inName))
    match rest with
    | '=' :: value => (numeral value).map fun n => (name, n.1)
    | value => (numeral value).map fun n => (name, n.1)

/-- The voltage of a node by its name as it is written. -/
def voltage (found : List Char × Decimal) : Quantity × Float :=
  (.voltage (String.ofList (trim found.1)), found.2.toFloat)

/-- The current of a device by its name as it is written. -/
def current (found : List Char × Decimal) : Quantity × Float :=
  (.current (lower (String.ofList (trim found.1))), found.2.toFloat)

/-- What a line says, in each of the ways in which it may say something. -/
def readings (line : List Char) : List (Quantity × Float) :=
  ((firstMatch (assignment "v") line).map voltage).toList
  ++ ((listing line).map voltage).toList
  ++ ((firstMatch (assignment "i") line).map current).toList
  ++ ((firstMatch branch line).map current).toList

/-- The quantity and the finite value that a line gives. -/
def readLine (line : List Char) : Option (Quantity × Float) :=
  (readings line).find? (·.2.isFinite)

/-- The operating point that lines give, put into one already read. -/
def readLines (found : List (String × Float)) (ls : List (List Char)) : List (String × Float) :=
  ls.foldl (fun found line =>
    match readLine line with
    | none => found
    | some (q, v) => Assoc.put q.name v found) found

theorem readLines_cons_of_none {line : List Char} (h : readLine line = none)
    (found : List (String × Float)) (ls : List (List Char)) :
    readLines found (line :: ls) = readLines found ls := by
  unfold readLines
  rw [List.foldl_cons]
  simp only [h]

theorem readLines_cons_of_some {line : List Char} {q : Quantity} {v : Float}
    (h : readLine line = some (q, v)) (found : List (String × Float)) (ls : List (List Char)) :
    readLines found (line :: ls) = readLines (Assoc.put q.name v found) ls := by
  unfold readLines
  rw [List.foldl_cons]
  simp only [h]

/-- The operating point in a text. -/
def read (s : String) : List (String × Float) := readLines [] (lines s)

end OperatingPoint

end Breadboard
