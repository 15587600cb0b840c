import Breadboard.Circuit.Basic

/-!
# Device models

The models that every deck brings along, and the model that a diode, an LED or a transistor uses.
-/

namespace Breadboard.DeviceModel

open Text

/-- The names and cards of the model library, in the order of the deck. -/
def library : List (String × String) :=
  [("D1N4148",
      ".model D1N4148 D (IS=2.52n RS=0.568 N=1.752 CJO=4p M=0.4 TT=20n BV=100 IBV=100u)"),
    ("LED_GENERIC", ".model LED_GENERIC D (IS=1e-20 N=1.8 RS=5 EG=1.9 BV=5 IBV=10u)"),
    ("BC337",
      ".model BC337 NPN (IS=1e-14 BF=200 VAF=100 NF=1 RB=100 RE=1 RC=1 "
        ++ "CJE=5p VJE=0.7 CJC=3p VJC=0.3 TF=0.3n TR=10n KF=2e-14 AF=1)"),
    ("BC549",
      ".model BC549 NPN (IS=1e-14 BF=300 VAF=150 NF=1 RB=150 RE=1 RC=1 "
        ++ "CJE=6p VJE=0.7 CJC=3p VJC=0.3 TF=0.25n TR=8n KF=5e-15 AF=1)"),
    ("BC327",
      ".model BC327 PNP (IS=2.294e-14 BF=200 VAF=115.7 NE=1.5 ISE=2.294e-14 "
        ++ "IKF=0.15 BR=5 RC=1 CJC=9.81p CJE=34.3p TF=0.431n TR=23.9n RB=10)"),
    ("2N3904",
      ".model 2N3904 NPN (IS=6.734f BF=416.4 VAF=74.03 IKF=66.78m RB=10 "
        ++ "CJE=4.493p CJC=3.638p TF=301.2p)"),
    ("2N3906",
      ".model 2N3906 PNP (IS=1.41f BF=180.7 VAF=18.7 IKF=80m RB=10 "
        ++ "CJE=8.063p CJC=9.728p TF=513.3p)")]

/-- Whether the library has a model of this name. -/
def isDefined (name : String) : Bool := (library.map (·.1)).contains name

/-- The transistor families, in the order in which they are looked for. -/
def families : List String := ["BC549", "BC337", "BC327", "2N3904", "2N3906"]

/-- The family of a transistor that names none. -/
def defaultFamily : String := "BC337"

/-- The family that a transistor's declared model contains. -/
def family (c : Component) : String :=
  let declared := upperAscii (c.model.getD "").toList
  (families.find? fun f => holds f.toList declared).getD defaultFamily

/-- The declared model of a diode or LED, or the default. -/
def declared (c : Component) (default : String) : String :=
  let name := trimmed (c.model.getD "")
  if name.isEmpty then default else name

theorem isDefined_families : ∀ f ∈ families, isDefined f := by decide

theorem isDefined_family (c : Component) : isDefined (family c) := by
  unfold family
  simp only
  generalize h : List.find? _ families = f
  cases f with
  | none => decide
  | some f => exact isDefined_families f (List.mem_of_find?_eq_some h)

end Breadboard.DeviceModel
