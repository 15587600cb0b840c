import Breadboard.Decimal.Shortest

/-!
# Layouts of decimals

The text of a number: positional inside a range of exponents, else one digit, a fraction and an
exponent with its sign and at least two digits. A layout names that range and whether a whole
number keeps a zero behind the point.
-/

namespace Breadboard

/-- Positional notation is used for numbers whose highest digit has an exponent from `low` up to
below `high`. -/
structure Layout where
  low : Int
  high : Int
  pointZero : Bool

namespace Layout

/-- The layout of stored numbers: exponents from 1e16 up and below 1e-4, and always a point. -/
def exact : Layout := ⟨-4, 16, true⟩

/-- The layout of numbers rounded to `digits` digits, which drops what says nothing. -/
def general (digits : Nat) : Layout := ⟨-4, digits, false⟩

end Layout

namespace Decimal

/-- The digits of a number. -/
def digitChars (n : Nat) : List Char := Nat.toDigits 10 n

/-- A sign before the digits of a negative number. -/
def withSign (negative : Bool) (cs : List Char) : List Char :=
  if negative then '-' :: cs else cs

/-- An exponent: its sign and at least two digits. -/
def exponentChars (e : Int) : List Char :=
  let ds := digitChars e.natAbs
  'e' :: (if e < 0 then '-' else '+') :: (if ds.length < 2 then '0' :: ds else ds)

/-- The digits `ds` followed by `e` zeros, or with the point moved `-e` places into them. -/
def positional (pointZero : Bool) (ds : List Char) (e : Int) : List Char :=
  if 0 ≤ e then ds ++ List.replicate e.toNat '0' ++ (if pointZero then ['.', '0'] else [])
  else
    let after := (-e).toNat
    let padded := List.replicate (after + 1 - ds.length) '0' ++ ds
    let whole := padded.length - after
    padded.take whole ++ '.' :: padded.drop whole

/-- The first digit, the rest behind a point, and the exponent of the first. -/
def scientific (ds : List Char) (top : Int) : List Char :=
  (match ds with
    | [] => []
    | [d] => [d]
    | d :: rest => d :: '.' :: rest) ++ exponentChars top

/-- The text of a decimal under a layout, without superfluous zeros. -/
def layOut (l : Layout) (d : Decimal) : List Char :=
  let (n, e) := stripZeros d.coefficient d.exponent
  let ds := digitChars n
  let top := e + (ds.length : Int) - 1
  withSign d.negative <|
    if l.low ≤ top ∧ top < l.high then positional l.pointZero ds e
    else scientific ds top

/-- A decimal with every digit of its coefficient, its fraction as long as its exponent says. -/
def plain (d : Decimal) : List Char :=
  withSign d.negative (positional false (digitChars d.coefficient) d.exponent)

/-- A decimal in scientific notation with every digit of its coefficient. -/
def scientificPlain (d : Decimal) : List Char :=
  let ds := digitChars d.coefficient
  withSign d.negative (scientific ds (d.exponent + (ds.length : Int) - 1))

end Decimal

namespace Real

/-- The text of a float that is not finite. -/
def special (f : Float) : String :=
  if f.isNaN then "nan" else if f < 0.0 then "-inf" else "inf"

/-- The shortest text that reads back as a float. -/
def text (f : Float) : String :=
  if f.isFinite then String.ofList ((Decimal.shortest f).layOut .exact) else special f

/-- A float rounded to `digits` significant digits. -/
def general (f : Float) (digits : Nat) : String :=
  if f.isFinite then String.ofList ((Decimal.significant f digits).layOut (.general digits))
  else special f

/-- A finite float with `places` digits behind the point. -/
def fixed (f : Float) (places : Nat) : List Char := (Decimal.places f places).plain

/-- A finite float in scientific notation with `digits` significant digits. -/
def scientific (f : Float) (digits : Nat) : List Char :=
  let d := Decimal.significant f digits
  if d.coefficient = Nat.pow 10 digits then
    Decimal.scientificPlain ⟨d.negative, Nat.pow 10 (digits - 1), d.exponent + 1⟩
  else d.scientificPlain

end Real

end Breadboard
