import Breadboard.Text.Blank
import Breadboard.Text.Fold

/-!
# Nets

A net is known by its trimmed name, case included; every spelling of ground is one net.
-/

namespace Breadboard.Net

open Text

/-- The name of ground. -/
def ground : String := "0"

/-- The spellings of ground, in capitals. -/
def groundSpellings : List String := ["0", "GND", "GROUND", "AGND", "DGND"]

/-- The one name of a net: empty for a blank, `ground` for ground, else the trimmed name. -/
def canonical (net : String) : String :=
  let name := trim net.toList
  if groundSpellings.contains (String.ofList (upperAscii name)) then ground
  else String.ofList name

/-- Whether a net is ground. -/
def isGround (net : String) : Bool := canonical net == ground

theorem canonical_ground : canonical ground = ground := by decide

theorem canonical_empty : canonical "" = "" := by decide

end Breadboard.Net
