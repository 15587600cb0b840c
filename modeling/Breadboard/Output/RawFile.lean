import Breadboard.Output.Row
import Breadboard.Output.Series
import Breadboard.Text.Fold
import Breadboard.Text.Lines

/-!
# Raw files

A raw file section names its variables, one to a line, and then holds their values: a point to a
line, or a point as its index and first value followed by one line for each further value. Columns
are found by the names of the variables.
-/

namespace Breadboard

open Text Numeral

namespace RawFile

/-- The variables of a section, in small letters, and the lines of its values. -/
structure Section where
  names : List (List Char)
  values : List (List Char)
  deriving DecidableEq

/-- Whether a line is this marker. -/
def isMarker (marker : String) (line : List Char) : Bool :=
  lowerAscii (trim line) == marker.toList

/-- The name in a variable line: a number, the name, and what else there is. -/
def variableName (line : List Char) : Option (List Char) :=
  match digits (trimStart line) with
  | ([], _) => none
  | (_, rest) =>
    if rest.head?.any isBlank then
      match (trimStart rest).takeWhile (! isBlank ·) with
      | [] => none
      | name => some (lowerAscii name)
    else none

/-- The variable names at the start of the lines, and the lines from the first that is neither
blank nor a variable. -/
def takeNames : List (List Char) → List (List Char) × List (List Char)
  | [] => ([], [])
  | line :: rest =>
    if isMarker "values:" line then ([], line :: rest)
    else
      match variableName line with
      | some name => let (names, tail) := takeNames rest; (name :: names, tail)
      | none => if allBlank line then takeNames rest else ([], line :: rest)

/-- Whether a line can hold values. -/
def isValueLine (line : List Char) : Bool :=
  match trimStart line with
  | [] => true
  | c :: _ => "0123456789+-.".toList.contains c

/-- The value lines at the start of the lines, and the lines from the first other one. -/
def takeValues (lines : List (List Char)) : List (List Char) × List (List Char) :=
  ((lines.takeWhile isValueLine).filter (! allBlank ·), lines.dropWhile isValueLine)

theorem length_takeNames (lines : List (List Char)) :
    (takeNames lines).2.length ≤ lines.length := by
  induction lines with
  | nil => simp [takeNames]
  | cons line rest ih =>
    simp only [takeNames]
    split
    · simp
    · split
      · simp only [List.length_cons]
        omega
      · split <;> simp only [List.length_cons] <;> omega

theorem length_takeValues (lines : List (List Char)) :
    (takeValues lines).2.length ≤ lines.length :=
  (List.dropWhile_sublist isValueLine).length_le

/-- The complete sections among the lines. -/
def sections (lines : List (List Char)) : List Section :=
  match lines with
  | [] => []
  | line :: rest =>
    if isMarker "variables:" line then
      let names := takeNames rest
      match _h : names.2 with
      | [] => []
      | marker :: tail =>
        if isMarker "values:" marker then
          let values := takeValues tail
          ⟨names.1, values.1⟩ :: sections values.2
        else sections (marker :: tail)
    else sections rest
termination_by lines.length
decreasing_by
  · have h₁ := length_takeNames rest
    have h₂ := length_takeValues tail
    simp only [names] at _h
    simp only [_h, List.length_cons] at h₁ ⊢
    omega
  · have h₁ := length_takeNames rest
    simp only [names] at _h
    simp only [_h, List.length_cons] at h₁ ⊢
    omega
  · simp

/-- The node of a voltage variable. -/
def voltageNode (name : List Char) : Except TooManyDigits (Option Int) :=
  match skipWord "v(".toList name with
  | none => .ok none
  | some cs =>
    match digits cs with
    | ([], _) => .ok none
    | (ds, [')']) =>
      match natural ds with
      | .error e => .error e
      | .ok n => .ok (some n)
    | _ => .ok none

/-- The nodes of the variables from this column on, with their columns; of two columns for one node
the later counts. -/
def nodeColumns (column : Nat) (found : List (Int × Nat)) :
    List (List Char) → Except TooManyDigits (List (Int × Nat))
  | [] => .ok found
  | name :: rest =>
    match voltageNode name with
    | .error e => .error e
    | .ok none => nodeColumns (column + 1) found rest
    | .ok (some node) => nodeColumns (column + 1) (Assoc.put node column found) rest

/-- Whether a word is a point index. -/
def isIndex (word : List Char) : Bool := !word.isEmpty && word.all isDigitLike

/-- What a value line does, given the values of the point that is being read: the point that is
being read after it, and the row that it completes. -/
inductive LineEffect where
  | row (words : List (List Char)) (pending : Option (List (List Char)))
  | joined
  | pending (words : List (List Char))

/-- A point is complete when it has a value for each variable. -/
def LineEffect.ofPoint (width : Nat) (words : List (List Char)) : LineEffect :=
  if words.length = width then .row words none else .pending words

/-- The effect of a line with these words. -/
def lineEffect (width : Nat) (pending : Option (List (List Char))) (words : List (List Char)) :
    LineEffect :=
  match words with
  | [] => .joined
  | [word] =>
    match pending with
    | some point => .ofPoint width (point ++ [word])
    | none => .joined
  | index :: rest =>
    if isIndex index then
      if rest.length = width then .row rest none
      else if rest.length = 1 then .ofPoint width rest
      else .joined
    else .joined

/-- The complete rows of the value lines, as far as all their values are finite. -/
def readRows (width : Nat) (pending : Option (List (List Char))) :
    List (List Char) → Except TooManyDigits (List (List Float))
  | [] => .ok []
  | line :: rest =>
    match lineEffect width pending (words line) with
    | .row tokens pending =>
      match readRows width pending rest with
      | .error e => .error e
      | .ok rows => .ok ((tokens.mapM readFinite).toList ++ rows)
    | .pending tokens => readRows width (some tokens) rest
    | .joined =>
      match Row.readJoined line with
      | .error e => .error e
      | .ok row =>
        match readRows width none rest with
        | .error e => .error e
        | .ok rows =>
          .ok (((row.map Row.values).filter (·.length == width)).toList ++ rows)

/-- The rows whose time, in this column, does not run back behind `last`. -/
def keepRows (column : Nat) (last : Option Float) : List (List Float) → List (List Float)
  | [] => []
  | row :: rest =>
    let time := row.getD column 0.0
    if last.any (time < ·) then keepRows column last rest
    else row :: keepRows column (some time) rest

/-- The series of a section, if it has a time and any row. -/
def Section.read (s : Section) : Except TooManyDigits (Option Series) :=
  match s.names.findIdx? (· == "time".toList) with
  | none => .ok none
  | some timeColumn =>
    match nodeColumns 0 [] s.names with
    | .error e => .error e
    | .ok columns =>
      match readRows s.names.length none s.values with
      | .error e => .error e
      | .ok rows =>
        let kept := keepRows timeColumn none rows
        let column := fun c : Nat => kept.map (·.getD c 0.0)
        if kept.isEmpty then .ok none
        else .ok (some ⟨column timeColumn, columns.map fun n => (n.1, column n.2), []⟩)

/-- The series of the first section that has one. -/
def readSections : List Section → Except TooManyDigits (Option Series)
  | [] => .ok none
  | s :: rest =>
    match s.read with
    | .error e => .error e
    | .ok (some series) => .ok (some series)
    | .ok none => readSections rest

/-- The series of the raw file sections in a text. -/
def read (s : String) : Except TooManyDigits (Option Series) := readSections (sections (lines s))

end RawFile

end Breadboard
