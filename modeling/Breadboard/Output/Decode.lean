import Breadboard.Output.OperatingPoint
import Breadboard.Output.RawFile
import Breadboard.Output.Table

/-!
# Decoding engine output

The operating point is collected from all lines. The transient result is looked for in printed
tables first and in raw file sections second, and the first that has more points than required is
taken.
-/

namespace Breadboard

/-- Where a transient result comes from. -/
inductive Strategy where
  | table
  | rawFile
  deriving DecidableEq, Repr

namespace Strategy

/-- The name of a strategy in results. -/
def name : Strategy → String
  | .table => "parse_tabular_transient"
  | .rawFile => "parse_variables_block"

/-- The strategies in the order in which they are tried. -/
def all : List Strategy := [.table, .rawFile]

/-- The series that a strategy finds, and how many rows it dropped. -/
def read (s : Strategy) (output : String) :
    Except Numeral.TooManyDigits (Option Series × Nat) :=
  match s with
  | .table => Table.readWithDropped output
  | .rawFile => do return (← RawFile.read output, 0)

end Strategy

/-- One try of a strategy: how many points it found, if any, and how many rows it dropped. -/
structure Attempt where
  strategy : Strategy
  points : Option Nat
  dropped : Nat
  deriving DecidableEq, Repr

/-- What was decoded: the transient result with the strategy that found it, and the operating
point. -/
structure Decoded where
  transient : Option (Strategy × Series)
  operatingPoint : List (String × Float)
  deriving DecidableEq

namespace Decoded

/-- Whether nothing was decoded. -/
def isEmpty (d : Decoded) : Bool := d.transient.isNone && d.operatingPoint.isEmpty

/-- The series of the transient result. -/
def series (d : Decoded) : Option Series := d.transient.map (·.2)

/-- The tries made until one finds more than `minPoints` points, and what that one found. -/
def search (output : String) (minPoints : Int) :
    List Strategy → List Attempt × Except Numeral.TooManyDigits (Option (Strategy × Series))
  | [] => ([], .ok none)
  | s :: rest =>
    match s.read output with
    | .error e => ([], .error e)
    | .ok (found, dropped) =>
      let attempt : Attempt := ⟨s, found.map Series.size, dropped⟩
      match found.filter fun series => minPoints < series.size with
      | some series => ([attempt], .ok (some (s, series)))
      | none =>
        let (attempts, result) := search output minPoints rest
        (attempt :: attempts, result)

/-- Decodes the output of the engine. -/
def ofOutput (output : String) (minPoints : Int) : Except Numeral.TooManyDigits Decoded :=
  match (search output minPoints Strategy.all).2 with
  | .error e => .error e
  | .ok transient => .ok ⟨transient, OperatingPoint.read output⟩

end Decoded

end Breadboard
