/-!
# Decimals

A decimal is a signed whole number times a power of ten. `Decimal.toFloat` is the float nearest
to it; magnitudes beyond the range of floats become an infinity or a zero without any
large power being formed.
-/

namespace Breadboard

/-- `coefficient * 10 ^ exponent`, negated if `negative`. -/
structure Decimal where
  negative : Bool
  coefficient : Nat
  exponent : Int
  deriving DecidableEq, Repr

namespace Decimal

/-- The number written by digits, most significant first. -/
def ofDigits (ds : List Nat) : Nat := ds.foldl (fun n d => 10 * n + d) 0

@[simp] theorem ofDigits_nil : ofDigits [] = 0 := rfl

/-- How many decimal digits a number has. -/
def width (n : Nat) : Nat := (Nat.toDigits 10 n).length

/-- The float with the sign of `negative` and the magnitude of `f`. -/
def signed (negative : Bool) (f : Float) : Float := if negative then -f else f

/-- A float from 1e309 up is infinite. -/
def infinity : Float := 1.0 / 0.0

/-- The float nearest to a decimal. -/
def toFloat (d : Decimal) : Float :=
  let top := width d.coefficient + d.exponent
  signed d.negative <|
    if d.coefficient = 0 ∨ top < -330 then 0.0
    else if 310 < top then infinity
    else if d.exponent < 0 then Float.ofScientific d.coefficient true d.exponent.natAbs
    else Float.ofScientific d.coefficient false d.exponent.natAbs

/-- The float nearest to a whole number, if it is in range. -/
def floatOfInt? (n : Int) : Option Float :=
  let f := toFloat ⟨n < 0, n.natAbs, 0⟩
  if f.isFinite then some f else none

end Decimal

end Breadboard
