import Breadboard.Proofs.Command.OneCircuit
import Breadboard.Proofs.Decimal.Order
import Breadboard.Proofs.Decimal.Range
import Breadboard.Proofs.Json.DistinctFields
import Breadboard.Proofs.Json.Unread
import Breadboard.Proofs.Lists
import Breadboard.Proofs.Text.Lines
import Breadboard.Proofs.Text.Utf8

/-!
# Loading settings

A settings file that can be read gives settings with a time limit above zero and no negative number
of points, or an error about its content that commands are prepared for. Three things slip through:
a file that is nested too deep and a whole number for a time limit that no float holds, which end a
command, and a time limit that is no finite number and yet not at most zero, which is accepted.
-/

namespace Breadboard

namespace Settings

variable {s s' : Settings} {key : String} {value : Json}

variable {fields : List (String × Json)}

variable {environment : Option String}

variable {t : FileTree} {n : Json.Nesting} {p : Path}

end Settings

/-! ## Commands -/

namespace Command

variable {file : String} {a : Surroundings} {c : Console}

end Command

namespace Settings

end Settings

end Breadboard
