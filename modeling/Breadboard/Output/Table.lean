import Breadboard.Output.Row
import Breadboard.Output.Series
import Breadboard.Text.Fold
import Breadboard.Text.Lines

/-!
# Printed tables

A transient run prints its vectors as tables: a header names the columns, and each row holds an
index, a time and a value for each column. Many columns take several tables, whose rows belong
together by their index. Rows that do not fit are dropped.
-/

namespace Breadboard

open Text Numeral

namespace Table

/-- The rest of a text behind the blanks it starts with, if there are some. -/
def behindBlanks (cs : List Char) : Option (List Char) :=
  if cs.head?.any isBlank then some (trimStart cs) else none

/-- A voltage column of a header: the digits of its node, and what follows. -/
def column (cs : List Char) : Option (List Nat × List Char) := do
  let afterOpening ← skipWord "v(".toList (← behindBlanks cs)
  match digits (trimStart afterOpening) with
  | ([], _) => none
  | (ds, rest) =>
    match trimStart rest with
    | ')' :: after => some (ds, after)
    | _ => none

theorem length_skipWord {word cs rest : List Char} (h : skipWord word cs = some rest) :
    rest.length + word.length = cs.length := by
  induction word generalizing cs with
  | nil => simp_all [skipWord]
  | cons p ps ih =>
    cases cs with
    | nil => simp [skipWord] at h
    | cons c cs =>
      simp only [skipWord] at h
      split at h
      · have := ih h
        simp only [List.length_cons]
        omega
      · simp at h

theorem length_trimStart (cs : List Char) : (trimStart cs).length ≤ cs.length :=
  (List.dropWhile_sublist isBlank).length_le

theorem length_column {cs rest : List Char} {ds : List Nat} (h : column cs = some (ds, rest)) :
    rest.length < cs.length := by
  simp only [column, Option.bind_eq_bind, Option.bind_eq_some_iff] at h
  obtain ⟨inner, hi, opened, ho, h⟩ := h
  have hl := length_skipWord ho
  have ht := length_trimStart opened
  have hd := length_digits (trimStart opened)
  have hi : inner.length ≤ cs.length := by
    simp only [behindBlanks] at hi
    split at hi
    · rw [← Option.some.inj hi]
      exact length_trimStart cs
    · simp at hi
  split at h
  · simp at h
  · next after _ hf =>
    have hr := length_trimStart after
    split at h
    · next tail hc =>
      simp only [Option.some.injEq, Prod.mk.injEq] at h
      simp only [hf] at hd
      simp only [hc, List.length_cons] at hr
      simp only [← h.2]
      simp at hl
      omega
    · simp at h

/-- The columns with which a text goes on until nothing but blanks is left. -/
def columns (cs : List Char) : Option (List (List Nat)) :=
  match _h : column cs with
  | none => if allBlank cs then some [] else none
  | some (ds, rest) => (columns rest).map (ds :: ·)
termination_by cs.length
decreasing_by exact length_column _h

/-- The columns of a header line: an optional index, the time, and at least one voltage. -/
def headerColumns (line : List Char) : Option (List (List Nat)) := do
  let cs := trimStart line
  let afterIndex := ((skipWord "index".toList cs).bind behindBlanks).getD cs
  let found ← columns (← skipWord "time".toList afterIndex)
  if found.isEmpty then none else some found

/-- The nodes of a header line. -/
def header (line : List Char) : Except TooManyDigits (Option (List Int)) :=
  match headerColumns line with
  | none => .ok none
  | some found => do
    let nodes ← found.mapM natural
    return some (nodes.map Int.ofNat)

/-- Whether a line is blank or ruled. -/
def isRule (line : List Char) : Bool := (trim line).all (· == '-')

/-- A row that fits its header. -/
structure Sample where
  index : Int
  time : Float
  values : List (Int × Float)

/-- What was read of the tables: the columns of the current one, the nodes of all headers, the rows
that fit, last first, and how many did not. -/
structure Reading where
  columns : Option (List Int)
  nodes : List Int
  samples : List Sample
  dropped : Nat

/-- The row of a line under these columns. -/
def sample (columns : List Int) (line : List Char) : Except TooManyDigits (Option Sample) :=
  match Row.read line with
  | .error e => .error e
  | .ok none => .ok none
  | .ok (some row) =>
    match row.values with
    | [] => .ok none
    | time :: values =>
      if values.length = columns.length then
        .ok (some ⟨row.index, time, Assoc.ofList (columns.zip values)⟩)
      else .ok none

/-- One line. -/
def Reading.step (r : Reading) (line : List Char) : Except TooManyDigits Reading :=
  match header line with
  | .error e => .error e
  | .ok (some columns) =>
    .ok { r with columns := some columns, nodes := (r.nodes ++ columns).eraseDups }
  | .ok none =>
    match r.columns with
    | none => .ok r
    | some columns =>
      if isRule line then .ok r
      else
        match sample columns line with
        | .error e => .error e
        | .ok none => .ok { r with dropped := r.dropped + 1 }
        | .ok (some s) => .ok { r with samples := s :: r.samples }

/-- The lines in turn. -/
def Reading.run (r : Reading) : List (List Char) → Except TooManyDigits Reading
  | [] => .ok r
  | line :: rest =>
    match r.step line with
    | .error e => .error e
    | .ok next => next.run rest

/-- A row with the values of a later row of the same index. -/
def Sample.join (a b : Sample) : Sample :=
  ⟨a.index, a.time, b.values.foldl (fun vs v => Assoc.put v.1 v.2 vs) a.values⟩

/-- Neighbours of the same index as one row. -/
def merge : List Sample → List Sample
  | [] => []
  | s :: rest => mergeFrom s rest
where
  /-- The row `s` with those of its index that follow, and the rows behind them. -/
  mergeFrom (s : Sample) : List Sample → List Sample
    | [] => [s]
    | t :: rest => if s.index = t.index then mergeFrom (s.join t) rest else s :: mergeFrom t rest

/-- The rows of all tables, by ascending index. -/
def Reading.rows (r : Reading) : List Sample :=
  merge (r.samples.reverse.mergeSort fun a b => a.index ≤ b.index)

/-- The rows that have a value for every node and whose time does not run back behind `last`. -/
def keepRows (width : Nat) (last : Option Float) : List Sample → List Sample
  | [] => []
  | s :: rest =>
    if s.values.length ≠ width ∨ last.any (s.time < ·) then keepRows width last rest
    else s :: keepRows width (some s.time) rest

/-- The values of a node, row by row. -/
def columnOf (rows : List Sample) (node : Int) : List Float :=
  rows.filterMap fun s => s.values.lookup node

/-- The series of the tables, if any row is left, and how many rows were dropped. -/
def Reading.series (r : Reading) : Option Series × Nat :=
  let rows := r.rows
  let kept := keepRows r.nodes.length none rows
  let dropped := if rows.isEmpty then 0 else r.dropped + (rows.length - kept.length)
  if kept.isEmpty then (none, dropped)
  else (some ⟨kept.map Sample.time, r.nodes.map fun n => (n, columnOf kept n), []⟩, dropped)

/-- The series of the tables in a text, and how many rows were dropped. -/
def readWithDropped (s : String) : Except TooManyDigits (Option Series × Nat) := do
  let r ← Reading.run ⟨none, [], [], 0⟩ (lines s)
  return r.series

/-- The series of the tables in a text. -/
def read (s : String) : Except TooManyDigits (Option Series) := do
  return (← readWithDropped s).1

end Table

end Breadboard
