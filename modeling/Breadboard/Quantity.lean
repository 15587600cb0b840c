import Breadboard.Decimal.Layout
import Breadboard.Decimal.Numeral
import Breadboard.Json.Basic
import Breadboard.Text.Fold

/-!
# Physical quantities

A quantity is a numeral, an optional SI prefix and an optional unit, with blanks, underscores and
ohm signs anywhere. `Quantity.read` gives its value in base units, `Quantity.forDeck` writes a
number as decks hold it, and `Quantity.forReader` with the prefix that suits its size.
-/

namespace Breadboard.Quantity

open Text

/-- The capital omega, the small omega and the ohm sign. -/
def isOhmSign (c : Char) : Bool := c.toNat == 0x3A9 || c.toNat == 0x3C9 || c.toNat == 0x2126

/-- A text without its ohm signs and without the words ohm and ohms. -/
def withoutOhms : List Char → List Char
  | [] => []
  | o :: h :: m :: cs =>
    if isOhmSign o then withoutOhms (h :: m :: cs)
    else if foldsTo 'o' o && foldsTo 'h' h && foldsTo 'm' m then
      match cs with
      | [] => []
      | s :: rest => if foldsTo 's' s then withoutOhms rest else withoutOhms (s :: rest)
    else o :: withoutOhms (h :: m :: cs)
  | c :: cs => if isOhmSign c then withoutOhms cs else c :: withoutOhms cs

/-- A unit behind a prefix. A farad is a capital F, for a small f is a femto. -/
def isUnit (cs : List Char) : Bool :=
  cs == ['F'] ||
    ["hz".toList, ['v'], ['a'], ['h'], ['s']].contains (lowerAscii cs)

/-- The prefixes of one letter, either case; milli and mega differ by case and stand apart. -/
def prefixes : List (Char × Float) :=
  [('t', 1e12), ('g', 1e9), ('k', 1e3), ('u', 1e-6), ('µ', 1e-6), ('μ', 1e-6), ('n', 1e-9),
    ('p', 1e-12), ('f', 1e-15)]

/-- The factor of a prefix whose unit is `unit`. -/
def factorBefore (unit : List Char) (factor : Float) : Option Float :=
  if unit.isEmpty || isUnit unit then some factor else none

/-- The factor that the letters behind a numeral stand for. -/
def factor? (suffix : List Char) : Option Float :=
  if suffix.isEmpty || isUnit suffix then some 1.0
  else if lowerAscii (suffix.take 3) = "meg".toList then factorBefore (suffix.drop 3) 1e6
  else
    match suffix with
    | [] => none
    | 'M' :: unit => factorBefore unit 1e6
    | 'm' :: unit => factorBefore unit 1e-3
    | c :: unit => (prefixes.lookup c.toLower).bind (factorBefore unit)

/-- A letter that may stand behind a numeral. -/
def isSuffixLetter (c : Char) : Bool := c.isAlpha || c == 'µ' || c == 'μ'

/-- What is left of a text for reading: no ohms, blanks or underscores. -/
def condensed (cs : List Char) : List Char :=
  (withoutOhms cs).filter fun c => !(isBlank c || c == '_')

/-- The value of a quantity, if it is one and finite. -/
def read (s : String) : Option Float := do
  let (d, suffix) ← Numeral.scan (condensed s.toList)
  if suffix.all isSuffixLetter then
    let factor ← factor? suffix
    let value := d.toFloat * factor
    if value.isFinite then some value else none
  else none

theorem isFinite_of_read {s : String} {v : Float} (h : read s = some v) : v.isFinite = true := by
  simp only [read, Option.bind_eq_bind, Option.bind_eq_some_iff] at h
  obtain ⟨⟨d, suffix⟩, _, h⟩ := h
  split at h
  · obtain ⟨factor, _, h⟩ := Option.bind_eq_some_iff.mp h
    split at h <;> simp_all
  · simp at h

/-- Why a value could not be looked at. -/
inductive Fault where
  /-- It is a whole number beyond the range of floats. -/
  | outOfRange
  /-- A list or an object holds a whole number that is too long to be written. -/
  | tooManyDigits
  deriving DecidableEq, Repr

/-- The text of the error. -/
def Fault.message : Fault → String
  | .outOfRange => "int too large to convert to float"
  | .tooManyDigits =>
    s!"Exceeds the limit ({Numeral.maxDigits} digits) for integer string conversion; " ++
      "use sys.set_int_max_str_digits() to increase the limit"

mutual

/-- Whether a value holds, at any depth, a whole number with more digits than are written. -/
def holdsLong : Json → Bool
  | .int n => Numeral.maxDigits < Decimal.width n.natAbs
  | .list items => itemsHoldLong items
  | .object fields => fieldsHoldLong fields
  | _ => false

/-- Whether an item holds a whole number that is too long. -/
def itemsHoldLong : List Json → Bool
  | [] => false
  | j :: js => holdsLong j || itemsHoldLong js

/-- Whether a field holds a whole number that is too long. -/
def fieldsHoldLong : List (String × Json) → Bool
  | [] => false
  | f :: fs => holdsLong f.2 || fieldsHoldLong fs

end

/-- The value of a quantity that came as any JSON value: numbers stand for themselves, text is
read, and all else is no quantity. Lists and objects are written out before they are seen to be
none. -/
def ofJson : Json → Except Fault (Option Float)
  | .int n =>
    match Decimal.floatOfInt? n with
    | some f => .ok (some f)
    | none => .error .outOfRange
  | .float f => .ok (if f.isFinite then some f else none)
  | .text s => .ok (read s)
  | j => if holdsLong j then .error .tooManyDigits else .ok none

/-- The value of a quantity that came as any JSON value, or `fallback`, of whatever type, for what
is no quantity. -/
def ofJsonOr {α : Type} (fallback : α) (j : Json) : Except Fault (Float ⊕ α) :=
  (ofJson j).map fun value => value.elim (.inr fallback) .inl

/-- A number in a deck: twelve significant digits, and zero for what is not finite. -/
def forDeck (f : Float) : String := if f.isFinite then Real.general f 12 else "0"

/-- The prefixes used for writing, greatest first. -/
def scale : List (Float × String) :=
  [(1e12, "T"), (1e9, "G"), (1e6, "M"), (1e3, "k"), (1.0, ""), (1e-3, "m"), (1e-6, "u"),
    (1e-9, "n"), (1e-12, "p"), (1e-15, "f")]

/-- A text without the zeros at its end, and then without a point there. -/
def withoutTrailingZeros (cs : List Char) : List Char :=
  ((cs.reverse.dropWhile (· == '0')).dropWhile (· == '.')).reverse

/-- A number for people: with the greatest prefix that it reaches, up to rounding, and six digits
behind the point at most; below every prefix in scientific notation. -/
def forReader (f : Float) (unit : String) : String :=
  if !f.isFinite then Real.text f ++ unit
  else if f == 0.0 then "0" ++ unit
  else
    match scale.find? fun s => s.1 * (1 - 1e-12) ≤ f.abs with
    | some s => String.ofList (withoutTrailingZeros (Real.fixed (f / s.1) 6)) ++ s.2 ++ unit
    | none => String.ofList (Real.scientific f 4) ++ unit

end Breadboard.Quantity
