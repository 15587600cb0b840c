import Breadboard.Decimal.Numeral

/-!
# Rows of numbers

A row of a printed table is an index and its values. The numbers are separated by blanks, or run
together; then the index ends before the last digit in front of the first point, or before a
sign there, and an exponent has two or three digits but never the digit before the next point.
-/

namespace Breadboard

open Text Numeral

/-- An index and the values that stand behind it. -/
structure Row where
  index : Int
  values : List Float
  deriving DecidableEq

namespace Row

/-- Whether a text starts with a digit and a point. -/
def startsValue (cs : List Char) : Bool :=
  match cs with
  | d :: '.' :: _ => isDecimal d
  | _ => false

/-- The digits of the index of a row whose numbers run together, and what follows. -/
def joinedIndex (cs : List Char) : Option (List Char × List Char) :=
  let run := cs.takeWhile isDecimal
  let rest := cs.dropWhile isDecimal
  if run.isEmpty then none
  else if startsSigned rest && startsValue (sign rest).2 then some (run, rest)
  else
    match rest, run.getLast? with
    | '.' :: _, some d =>
      if run.length < 2 then none else some (run.dropLast, d :: rest)
    | _, _ => none

/-- Whether a point follows. -/
def pointNext (cs : List Char) : Bool := cs.head? == some '.'

/-- The digits of an exponent that stands before other numbers, and what follows. -/
def joinedExponentDigits (cs : List Char) : Option (List Char × List Char) :=
  let run := cs.takeWhile isDecimal
  if 3 ≤ run.length ∧ !pointNext (cs.drop 3) then some (cs.take 3, cs.drop 3)
  else if 2 ≤ run.length ∧ !pointNext (cs.drop 2) then some (cs.take 2, cs.drop 2)
  else none

/-- An exponent that stands before other numbers, and what follows; without one, the text. -/
def joinedExponent (cs : List Char) : Int × List Char :=
  match cs with
  | [] => (0, [])
  | c :: rest =>
    if isExponentMark c then
      let (negative, tail) := sign rest
      match joinedExponentDigits tail with
      | none => (0, cs)
      | some (ds, after) =>
        let n : Int := Decimal.ofDigits (ds.filterMap digitValue?)
        (if negative then -n else n, after)
    else (0, cs)

/-- A value that stands before other numbers, one digit before its point, and what follows. -/
def joinedValue (cs : List Char) : Option (Decimal × List Char) :=
  let (negative, unsigned) := sign cs
  match unsigned with
  | d :: '.' :: rest =>
    match digitValue? d, digits rest with
    | none, _ => none
    | _, ([], _) => none
    | some whole, (fraction, after) =>
      let (e, tail) := joinedExponent after
      some (decimal negative [whole] fraction e, tail)
  | _ => none

theorem length_joinedExponentDigits {cs ds after : List Char}
    (h : joinedExponentDigits cs = some (ds, after)) : after.length ≤ cs.length := by
  simp only [joinedExponentDigits] at h
  split at h
  · simp only [Option.some.injEq, Prod.mk.injEq] at h
    simp [← h.2]
  · split at h
    · simp only [Option.some.injEq, Prod.mk.injEq] at h
      simp [← h.2]
    · simp at h

theorem length_joinedExponent (cs : List Char) : (joinedExponent cs).2.length ≤ cs.length := by
  unfold joinedExponent
  cases cs with
  | nil => simp
  | cons c rest =>
    simp only
    split
    · split
      · exact Nat.le_refl _
      · next h =>
        have := length_joinedExponentDigits h
        have := length_sign rest
        simp only [List.length_cons]
        omega
    · exact Nat.le_refl _

theorem length_joinedValue {cs rest : List Char} {d : Decimal}
    (h : joinedValue cs = some (d, rest)) : rest.length < cs.length := by
  have hs := length_sign cs
  simp only [joinedValue] at h
  split at h
  · next tail hc =>
    have hd := length_digits tail
    split at h
    · simp at h
    · simp at h
    · next after _ _ hf =>
      have he := length_joinedExponent after
      simp only [Option.some.injEq, Prod.mk.injEq] at h
      simp only [hf] at hd
      simp only [hc, List.length_cons] at hs
      simp only [← h.2]
      omega
  · simp at h

/-- The values of a text in which they run together, if it holds nothing else and all are finite.
-/
def joinedValues (cs : List Char) : Option (List Float) :=
  if cs.isEmpty then some []
  else
    match _h : joinedValue cs with
    | none => none
    | some (d, rest) =>
      if d.toFloat.isFinite then (joinedValues rest).map (d.toFloat :: ·) else none
termination_by cs.length
decreasing_by exact length_joinedValue _h

/-- The row of a line whose numbers run together; blanks say nothing. -/
def readJoined (line : List Char) : Except TooManyDigits (Option Row) :=
  match joinedIndex (line.filter (! isBlank ·)) with
  | none => .ok none
  | some (ds, rest) =>
    match natural (ds.filterMap digitValue?) with
    | .error e => .error e
    | .ok index =>
      match joinedValues rest with
      | none => .ok none
      | some values => .ok (some ⟨index, values⟩)

/-- The row of a line whose numbers stand apart, if all its words are numbers. -/
def readSpaced (line : List Char) : Option Row :=
  match words line with
  | index :: value :: rest =>
    match readInt index, (value :: rest).mapM readFloat with
    | .ok n, some values => some ⟨n, values⟩
    | _, _ => none
  | _ => none

/-- The row of a line: with its numbers apart or, failing that, run together. -/
def read (line : List Char) : Except TooManyDigits (Option Row) :=
  if allBlank line then .ok none
  else
    match readSpaced line with
    | some row => .ok (if row.values.all Float.isFinite then some row else none)
    | none => readJoined line

end Row

end Breadboard
