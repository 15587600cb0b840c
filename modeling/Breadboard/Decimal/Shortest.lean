import Breadboard.Decimal.Binary

/-!
# The shortest decimal of a float

Of all decimals that read back as a given float, `Decimal.shortest` takes one with the fewest
digits, and of those the nearest. The decimals that read back fill an interval around the float
whose ends are half way to its neighbours; the ends belong to it when the mantissa is even.
-/

namespace Breadboard

namespace Decimal

/-- The interval of a float, its ends in quarters of the last place: lower end, value, upper
end. Below a power of two the neighbours are twice as close. -/
def quarters (b : Binary) : Nat × Nat × Nat :=
  let low := if b.mantissa = Binary.hidden ∧ -1074 < b.exponent then 1 else 2
  (4 * b.mantissa - low, 4 * b.mantissa, 4 * b.mantissa + 2)

/-- Whether `n * 10 ^ unit` lies in the interval of `b`. -/
def readsBack (b : Binary) (unit : Int) (n : Nat) : Bool :=
  let (low, _, high) := quarters b
  let (lowNum, den) := Binary.quotient low (b.exponent - 2) unit
  let (highNum, _) := Binary.quotient high (b.exponent - 2) unit
  if b.mantissa % 2 = 0 then lowNum ≤ n * den && n * den ≤ highNum
  else lowNum < n * den && n * den < highNum

/-- The multiple of `10 ^ unit` in the interval of `b` that is nearest to it, if one of the two
multiples next to `b` lies there. -/
def onGrid (b : Binary) (unit : Int) : Option Nat :=
  let (num, den) := Binary.quotient b.mantissa b.exponent unit
  let below := num / den
  let nearest := Binary.roundDiv num den
  let other := if nearest = below then below + 1 else below
  if readsBack b unit nearest then some nearest
  else if readsBack b unit other then some other
  else none

/-- The first of the grids from `top` digits down on which some multiple reads back. -/
def firstGrid (b : Binary) (top : Int) : Nat → Nat × Int
  | 0 => (0, 0)
  | left + 1 =>
    let unit := top - (17 - (left + 1 : Int))
    match onGrid b unit with
    | some n => (n, unit)
    | none => firstGrid b top left

/-- A coefficient without the zeros it ends in, which go into the exponent. -/
def stripZeros (n : Nat) (e : Int) : Nat × Int :=
  if n = 0 then (0, 0)
  else if n % 10 = 0 then stripZeros (n / 10) (e + 1)
  else (n, e)
termination_by n
decreasing_by omega

/-- The decimal with the fewest digits that reads back as a finite float. -/
def shortest (f : Float) : Decimal :=
  let b := Binary.ofFloat f
  if b.mantissa = 0 then ⟨b.negative, 0, 0⟩
  else
    let (n, unit) := firstGrid b b.topExponent 17
    let (coefficient, exponent) := stripZeros n unit
    ⟨b.negative, coefficient, exponent⟩

/-- The decimal with `digits` significant digits nearest to a finite float. -/
def significant (f : Float) (digits : Nat) : Decimal :=
  let b := Binary.ofFloat f
  if b.mantissa = 0 then ⟨b.negative, 0, 0⟩
  else
    let unit := b.topExponent - (digits - 1 : Int)
    let (num, den) := Binary.quotient b.mantissa b.exponent unit
    ⟨b.negative, Binary.roundDiv num den, unit⟩

/-- The multiple of `10 ^ -places` nearest to a finite float. -/
def places (f : Float) (places : Nat) : Decimal :=
  let b := Binary.ofFloat f
  let (num, den) := Binary.quotient b.mantissa b.exponent (-places)
  ⟨b.negative, Binary.roundDiv num den, -places⟩

end Decimal

end Breadboard
