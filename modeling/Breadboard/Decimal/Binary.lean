import Breadboard.Decimal.Basic

/-!
# Floats as exact numbers

A finite float is a whole number times a power of two. `Binary.quotient` puts its magnitude over a
power of ten as a fraction of whole numbers, on which all rounding is done.
-/

namespace Breadboard

/-- `mantissa * 2 ^ exponent`, negated if `negative`. -/
structure Binary where
  negative : Bool
  mantissa : Nat
  exponent : Int
  deriving DecidableEq, Repr

namespace Binary

/-- The least mantissa of a normal float. -/
def hidden : Nat := Nat.pow 2 52

/-- The fields of a float: sign, eleven bits of exponent and 52 of mantissa. -/
def ofBits (bits : Nat) : Binary :=
  let fraction := bits % hidden
  let e := bits / hidden % 2048
  if e = 0 then ⟨bits / Nat.pow 2 63 == 1, fraction, -1074⟩
  else ⟨bits / Nat.pow 2 63 == 1, hidden + fraction, (e : Int) - 1075⟩

/-- The exact value of a finite float. -/
def ofFloat (f : Float) : Binary := ofBits f.toBits.toNat

/-- The fraction `n * 2 ^ e / 10 ^ unit`, as numerator and denominator. -/
def quotient (n : Nat) (e unit : Int) : Nat × Nat :=
  (n * Nat.pow 2 e.toNat * Nat.pow 10 (-unit).toNat,
    Nat.pow 2 (-e).toNat * Nat.pow 10 unit.toNat)

theorem quotient_snd_pos (n : Nat) (e unit : Int) : 0 < (quotient n e unit).2 := by
  simp only [quotient]
  exact Nat.mul_pos (Nat.pow_pos (by decide)) (Nat.pow_pos (by decide))

/-- The exponent of the highest digit of a positive magnitude: the greatest `k` for which
`10 ^ k` does not exceed it. -/
def topExponent (b : Binary) : Int :=
  let (num, den) := quotient b.mantissa b.exponent 0
  if den ≤ num then (Decimal.width (num / den) : Int) - 1
  else -(Decimal.width ((den - 1) / num) : Int)

/-- The whole number nearest to a fraction, an exact half going to the even one. -/
def roundDiv (num den : Nat) : Nat :=
  let q := num / den
  let r := num % den
  if 2 * r < den then q
  else if den < 2 * r then q + 1
  else q + q % 2

end Binary

end Breadboard
