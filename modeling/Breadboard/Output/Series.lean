import Breadboard.Assoc
import Breadboard.Decimal.Numeral
import Breadboard.Text.Quoted

/-!
# Time series

A series holds a time vector, a vector for each node and a vector for each current, all of one
length, with times that never run back.
-/

namespace Breadboard

/-- Vectors over time, keyed by node number and by the name of a current. -/
structure Series where
  time : List Float
  voltages : List (Int × List Float)
  currents : List (String × List Float)
  deriving DecidableEq

/-- Why vectors do not make up a series. -/
inductive SeriesError where
  | node (text : String) (fault : Numeral.IntegerFault)
  | length (key : String) (size expected : Nat)
  | timeRunsBack
  deriving DecidableEq, Repr

/-- The wording of an error; a text that is no number is quoted up to 200 characters. -/
def SeriesError.message : SeriesError → String
  | .node text .notANumber =>
    "invalid literal for int() with base 10: "
      ++ String.ofList ((Text.quotedChars text.toList).take 200)
  | .node _ (.tooManyDigits e) => e.message
  | .length key size expected => s!"Vector {key} has {size} points, expected {expected}"
  | .timeRunsBack => "Time vector must be non-decreasing"

namespace Series

/-- How many points a series has. -/
def size (s : Series) : Nat := s.time.length

/-- The nodes of a series, ascending. -/
def nodes (s : Series) : List Int := (s.voltages.map (·.1)).mergeSort (· ≤ ·)

/-- Whether some time is less than the one before it. -/
def runsBack : List Float → Bool
  | a :: b :: rest => decide (b < a) || runsBack (b :: rest)
  | _ => false

/-- Voltages by node number, from voltages by the text of the number. -/
def readNodes (voltages : List (String × List Float)) :
    Except SeriesError (List (Int × List Float)) := do
  let entries ← voltages.mapM fun v =>
    match Numeral.readInt v.1.toList with
    | .ok n => .ok (n, v.2)
    | .error e => .error (.node v.1 e)
  return Assoc.ofList entries

/-- The first vector of another length than the time vector. -/
def checkLengths (expected : Nat) : List (String × List Float) → Except SeriesError Unit
  | [] => .ok ()
  | (key, values) :: rest =>
    if values.length = expected then checkLengths expected rest
    else .error (.length key values.length expected)

/-- The series of these vectors. -/
def ofVectors (time : List Float) (voltages : List (Int × List Float))
    (currents : List (String × List Float)) : Except SeriesError Series := do
  checkLengths time.length (voltages.map fun v => (toString v.1, v.2))
  checkLengths time.length currents
  if runsBack time then throw .timeRunsBack
  return ⟨time, voltages, currents⟩

end Series

end Breadboard
