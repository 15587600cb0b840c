import Breadboard.Decimal.Basic
import Breadboard.Text.Blank
import Breadboard.Text.Digit

/-!
# Numerals

How numbers are written: a sign, digits with an optional point, and an optional exponent of ten.
`Numeral.scan` reads the longest numeral a text starts with; `readFloat` and `readInt` read a whole
text, where single underscores may stand between digits and blanks around the numeral.
-/

namespace Breadboard

open Text

namespace Numeral

/-- The digits a text starts with, and what follows them. -/
def digits (cs : List Char) : List Nat × List Char :=
  ((cs.takeWhile isDecimal).filterMap digitValue?, cs.dropWhile isDecimal)

theorem length_digits (cs : List Char) : (digits cs).2.length ≤ cs.length :=
  (List.dropWhile_sublist isDecimal).length_le

/-- An optional sign, and what follows it. -/
def sign : List Char → Bool × List Char
  | '-' :: cs => (true, cs)
  | '+' :: cs => (false, cs)
  | cs => (false, cs)

theorem length_sign (cs : List Char) : (sign cs).2.length ≤ cs.length := by
  unfold sign
  split <;> simp

/-- Whether a text starts with a sign. -/
def startsSigned : List Char → Bool
  | '-' :: _ => true
  | '+' :: _ => true
  | _ => false

/-- The letter that opens an exponent. -/
def isExponentMark (c : Char) : Bool := c == 'e' || c == 'E'

/-- An exponent and what follows it; a text that starts with none is left as it is. -/
def exponent (cs : List Char) : Int × List Char :=
  match cs with
  | [] => (0, [])
  | c :: rest =>
    if isExponentMark c then
      let (negative, tail) := sign rest
      match digits tail with
      | ([], _) => (0, cs)
      | (ds, after) =>
        let n : Int := Decimal.ofDigits ds
        (if negative then -n else n, after)
    else (0, cs)

/-- Digits with a point among or after them, or before them: whole digits, digits after the point,
and what follows. -/
def mantissa (cs : List Char) : Option (List Nat × List Nat × List Char) :=
  match digits cs with
  | ([], '.' :: rest) =>
    match digits rest with
    | ([], _) => none
    | (fraction, after) => some ([], fraction, after)
  | ([], _) => none
  | (whole, '.' :: rest) => let (fraction, after) := digits rest; some (whole, fraction, after)
  | (whole, after) => some (whole, [], after)

/-- The decimal with these digits before and after the point. -/
def decimal (negative : Bool) (whole fraction : List Nat) (exponent : Int) : Decimal :=
  ⟨negative, Decimal.ofDigits (whole ++ fraction), exponent - fraction.length⟩

/-- The numeral a text starts with, read as far as it goes, and what follows it. -/
def scan (cs : List Char) : Option (Decimal × List Char) :=
  let (negative, unsigned) := sign cs
  match mantissa unsigned with
  | none => none
  | some (whole, fraction, rest) =>
    let (e, after) := exponent rest
    some (decimal negative whole fraction e, after)

/-- Blanks that may stand around a numeral: all but the information separators. -/
def isPadding (c : Char) : Bool := isBlank c && !(28 ≤ c.toNat && c.toNat ≤ 31)

/-- A text without the padding around it. -/
def unpadded (cs : List Char) : List Char :=
  ((cs.dropWhile isPadding).reverse.dropWhile isPadding).reverse

/-- A text without its underscores, if each stands between two digits; `afterDigit` tells whether
the character before the text is a digit. -/
def joinGroups (afterDigit : Bool) : List Char → Option (List Char)
  | [] => some []
  | '_' :: c :: cs =>
    if afterDigit && isDecimal c then (joinGroups true cs).map (c :: ·) else none
  | '_' :: [] => none
  | c :: cs => (joinGroups (isDecimal c) cs).map (c :: ·)

/-- The spellings of the numbers that are not finite. -/
def special (cs : List Char) : Option Float :=
  let low := cs.map Char.toLower
  if low = "inf".toList ∨ low = "infinity".toList then some Decimal.infinity
  else if low = "nan".toList then some (0.0 / 0.0)
  else none

/-- The float a whole text stands for. -/
def readFloat (cs : List Char) : Option Float := do
  let joined ← joinGroups false (unpadded cs)
  match scan joined with
  | some (d, []) => some d.toFloat
  | _ =>
    let (negative, unsigned) := sign joined
    (special unsigned).map (Decimal.signed negative)

/-- The float a whole text stands for, if it is finite. -/
def readFinite (cs : List Char) : Option Float :=
  (readFloat cs).filter Float.isFinite

/-- Whole numbers are read from at most this many digits. -/
def maxDigits : Nat := 4300

/-- A whole number was written with more than `maxDigits` digits. -/
structure TooManyDigits where
  digits : Nat
  deriving DecidableEq, Repr

/-- The limit and how many digits there were. -/
def TooManyDigits.message (e : TooManyDigits) : String :=
  s!"Exceeds the limit ({maxDigits} digits) for integer string conversion: value has "
    ++ s!"{e.digits} digits; use sys.set_int_max_str_digits() to increase the limit"

/-- The number written by a run of digits. -/
def natural (ds : List Nat) : Except TooManyDigits Nat :=
  if maxDigits < ds.length then .error ⟨ds.length⟩ else .ok (Decimal.ofDigits ds)

theorem natural_ok {ds : List Nat} (h : ds.length ≤ maxDigits) :
    natural ds = .ok (Decimal.ofDigits ds) := by
  simp [natural, Nat.not_lt.mpr h]

/-- Why a text is no whole number. -/
inductive IntegerFault where
  | notANumber
  | tooManyDigits (e : TooManyDigits)
  deriving DecidableEq, Repr

/-- Whether a run of digits and underscores has its underscores singly between digits. -/
def wellGrouped (run : List Char) : Bool := (joinGroups false run).isSome

/-- The whole number a text stands for. -/
def readInt (cs : List Char) : Except IntegerFault Int :=
  let (negative, unsigned) := sign (unpadded cs)
  let inRun := fun c => isDecimal c || c == '_'
  let run := unsigned.takeWhile inRun
  let ds := run.filterMap digitValue?
  if ds.isEmpty || !wellGrouped run then .error .notANumber
  else
    match natural ds with
    | .error e => .error (.tooManyDigits e)
    | .ok n =>
      if (unsigned.dropWhile inRun).isEmpty then .ok (if negative then -(n : Int) else n)
      else .error .notANumber

end Numeral

end Breadboard
