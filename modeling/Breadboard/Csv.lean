import Breadboard.Decimal.Layout
import Breadboard.Output.Labels

/-!
# Comma-separated values

Results are exported as records of fields. A field that holds a comma, a quote or a line end is put
in quotes, with its quotes doubled, and each record ends with a carriage return and a line feed.
-/

namespace Breadboard

namespace Csv

/-- Whether a field has to be in quotes. -/
def needsQuotes (field : List Char) : Bool :=
  field.any fun c => c == ',' || c == '"' || c == '\r' || c == '\n'

/-- The inside of a quoted field. -/
def doubleQuotes (field : List Char) : List Char :=
  field.flatMap fun c => if c = '"' then ['"', '"'] else [c]

/-- A field as it is written. -/
def fieldChars (field : List Char) : List Char :=
  if needsQuotes field then '"' :: doubleQuotes field ++ ['"'] else field

/-- A record as it is written; a lone empty field is quoted, for nothing at all is a record without
fields. -/
def recordChars (fields : List (List Char)) : List Char :=
  (match fields with
    | [[]] => ['"', '"']
    | _ => List.intercalate [','] (fields.map fieldChars)) ++ ['\r', '\n']

/-- The text of records. -/
def render (records : List (List String)) : String :=
  String.ofList (records.flatMap fun r => recordChars (r.map String.toList))

/-- The records before the data: the kind of analysis, the date, the circuit if it has a name, and
an empty record. -/
def preamble (analysis date circuit : String) : List (List String) :=
  [["# Analysis Type", analysis], ["# Date", date]]
  ++ (if circuit.isEmpty then [] else [["# Circuit", circuit]]) ++ [[]]

/-- Entries by ascending key. -/
def sorted {α : Type} (entries : List (String × α)) : List (String × α) :=
  entries.mergeSort fun a b => a.1 ≤ b.1

/-- The records of an operating point. -/
def operatingPointRecords (date circuit : String) (point : List (String × String)) :
    List (List String) :=
  preamble "Operating Point" date circuit ++ ["Quantity", "Value"] ::
    (sorted point).map fun e => [e.1, e.2]

/-- A vector is shorter than the time vector. -/
structure ShortVector where

/-- The values of all vectors at one time. -/
def valuesAt (i : Nat) : List (List String) → Except ShortVector (List String)
  | [] => .ok []
  | v :: rest =>
    match v[i]?, valuesAt i rest with
    | some value, .ok values => .ok (value :: values)
    | _, _ => .error ⟨⟩

/-- The records of the times from `i` on. -/
def timeRecords (vectors : List (List String)) (i : Nat) :
    List String → Except ShortVector (List (List String))
  | [] => .ok []
  | t :: rest =>
    match valuesAt i vectors, timeRecords vectors (i + 1) rest with
    | .ok values, .ok records => .ok ((t :: values) :: records)
    | _, _ => .error ⟨⟩

/-- The records of a transient result, whose numbers are given by their text. -/
def transientRecords (date circuit : String) (time : List String)
    (voltages currents : List (String × List String)) : Except ShortVector (List (List String)) :=
  let start := preamble "Transient" date circuit
  if time.isEmpty then .ok start
  else
    let voltages := sorted voltages
    let currents := sorted currents
    let header := "time" :: (voltages.map fun v => s!"V({v.1})")
      ++ currents.map fun c => s!"I({c.1})"
    match timeRecords ((voltages ++ currents).map (·.2)) 0 time with
    | .error e => .error e
    | .ok records => .ok (start ++ header :: records)

/-- The text of an operating point. -/
def ofOperatingPoint (date circuit : String) (point : List (String × Float)) : String :=
  render (operatingPointRecords date circuit (point.map fun e => (e.1, Real.text e.2)))

/-- The text of a labelled series. -/
def ofSeries (date circuit : String) (l : NetSeries) : Except ShortVector String :=
  let vectors := List.map fun v : String × List Float => (v.1, v.2.map Real.text)
  match transientRecords date circuit (l.time.map Real.text) (vectors l.voltages)
      (vectors l.currents) with
  | .error e => .error e
  | .ok records => .ok (render records)

end Csv

end Breadboard
