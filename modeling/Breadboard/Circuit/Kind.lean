import Breadboard.Text.Blank
import Breadboard.Text.Fold

/-!
# Kinds of parts

A part is a device, which becomes one line of the deck, a junction, which joins nets, an instrument
that only displays, or unsupported. The editor's kind words are read without regard to case.
-/

namespace Breadboard

open Text

/-- The parts that become a line of the deck. -/
inductive Device where
  | resistor
  | capacitor
  | diode
  | led
  | transistor
  | voltageSource
  deriving DecidableEq, Repr

/-- What a part is to the deck. -/
inductive Kind where
  | device (d : Device)
  | junction
  | displayOnly
  | unsupported
  deriving DecidableEq, Repr

namespace Device

/-- The letter that begins the name of a device in the deck. -/
def letter : Device → String
  | .resistor => "R"
  | .capacitor => "C"
  | .diode => "D"
  | .led => "D"
  | .transistor => "Q"
  | .voltageSource => "V"

/-- The pins that have to be wired, in the order of their nodes on the line; a source names its
positive pin first. -/
def requiredPins : Device → List String
  | .transistor => ["C", "B", "E"]
  | .voltageSource => ["2", "1"]
  | _ => ["1", "2"]

/-- The name of a device. -/
def name : Device → String
  | .resistor => "resistor"
  | .capacitor => "capacitor"
  | .diode => "diode"
  | .led => "led"
  | .transistor => "transistor"
  | .voltageSource => "voltage_source"

end Device

namespace Kind

/-- The name of a kind. -/
def name : Kind → String
  | .device d => d.name
  | .junction => "junction"
  | .displayOnly => "display_only"
  | .unsupported => "unsupported"

theorem name_ne_empty (k : Kind) : k.name ≠ "" := by
  cases k with
  | device d => cases d <;> decide
  | _ => decide

/-- Every kind. -/
def all : List Kind :=
  [.device .resistor, .device .capacitor, .device .diode, .device .led, .device .transistor,
    .device .voltageSource, .junction, .displayOnly, .unsupported]

/-- The kind with this name. -/
def named? (name : String) : Option Kind := all.find? (·.name == name)

theorem named?_name (k : Kind) : named? k.name = some k := by
  cases k with
  | device d => cases d <;> decide
  | _ => decide

/-- The words for instruments. -/
def instruments : List String := ["oscilloscope", "label", "measurement", "multimeter", "probe"]

/-- The other kind words. -/
def words : List (String × Kind) :=
  [("resistor", .device .resistor), ("capacitor", .device .capacitor), ("diode", .device .diode),
    ("led", .device .led), ("transistor", .device .transistor), ("bjt", .device .transistor),
    ("battery", .device .voltageSource), ("voltage_source", .device .voltageSource),
    ("node", .junction), ("junction", .junction), ("splitter", .junction)]

/-- A kind word as it is looked up. -/
def key (word : String) : String := String.ofList (lowerAscii (trim word.toList))

/-- The kind of a part from its kind word and its type word; an instrument is known by either. -/
def ofWords (kind type : String) : Kind :=
  if instruments.contains (key kind) || instruments.contains (key type) then .displayOnly
  else (words.lookup (key kind)).getD .unsupported

/-- The letter of a kind; parts without a line have an X. -/
def letter : Kind → String
  | .device d => d.letter
  | _ => "X"

end Kind

end Breadboard
