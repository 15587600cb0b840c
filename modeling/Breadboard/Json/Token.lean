import Breadboard.Json.Basic
import Breadboard.Decimal.Numeral

/-!
# JSON tokens

A text is cut into tokens, each with the index of its first character. A token that is malformed
keeps its fault and ends the list; whether the fault is the one to report depends on what was
expected in its place.
-/

namespace Breadboard.Json

/-- What is wrong with a text that is no JSON. -/
inductive Fault where
  | byteOrderMark
  | value
  | propertyName
  | colon
  | comma
  | extraData
  | unterminatedString
  | controlCharacter
  | escape
  | unicodeEscape
  | unpairedSurrogate
  deriving DecidableEq, Repr

/-- A piece of a JSON text. -/
inductive Token where
  | openList
  | closeList
  | openObject
  | closeObject
  | comma
  | colon
  | text (s : String)
  | scalar (j : Json)
  | badText (fault : Fault) (index : Nat)
  | badNumber (e : Numeral.TooManyDigits)
  | junk

namespace Token

/-- The value of a digit in base sixteen. -/
def hexValue? (c : Char) : Option Nat :=
  if c.isDigit then some (c.toNat - 48)
  else if 'a' ≤ c ∧ c ≤ 'f' then some (c.toNat - 87)
  else if 'A' ≤ c ∧ c ≤ 'F' then some (c.toNat - 55)
  else none

/-- The number written by four digits in base sixteen. -/
def hexUnit? (a b c d : Char) : Option Nat := do
  return (← hexValue? a) * 4096 + (← hexValue? b) * 256 + (← hexValue? c) * 16 + (← hexValue? d)

/-- The low half of a surrogate pair, if the text goes on with its escape. -/
def lowSurrogate? (index : Nat) (cs : List Char) : Except (Fault × Nat) (Option Nat) :=
  match cs with
  | s :: u :: a :: b :: c :: d :: _ :: _ =>
    if s = '\\' ∧ u = 'u' then
      match hexUnit? a b c d with
      | none => .error (.unicodeEscape, index + 1)
      | some n => .ok (if 0xDC00 ≤ n ∧ n ≤ 0xDFFF then some n else none)
    else .ok none
  | _ => .ok none

/-- The escape of a UTF-16 unit whose backslash has this index, from behind its letter: the
character, and how many characters of the text it takes with its letter. Half of a surrogate pair on
its own is no character, and a text with one is not read since it could not be written again. -/
def unicodeEscape (index : Nat) (cs : List Char) : Except (Fault × Nat) (Char × Nat) :=
  match cs with
  | a :: b :: c :: d :: e :: rest =>
    match hexUnit? a b c d with
    | none => .error (.unicodeEscape, index + 1)
    | some n =>
      if 0xD800 ≤ n ∧ n ≤ 0xDBFF then
        match lowSurrogate? (index + 6) (e :: rest) with
        | .error fault => .error fault
        | .ok none => .error (.unpairedSurrogate, index)
        | .ok (some low) =>
          .ok (Char.ofNat (0x10000 + (n - 0xD800) * 0x400 + (low - 0xDC00)), 11)
      else if 0xDC00 ≤ n ∧ n ≤ 0xDFFF then .error (.unpairedSurrogate, index)
      else .ok (Char.ofNat n, 5)
  | _ => .error (.unicodeEscape, index + 1)

/-- The character that a letter behind a backslash stands for. -/
def simpleEscape? (c : Char) : Option Char :=
  if c = '"' ∨ c = '\\' ∨ c = '/' then some c
  else if c = 'b' then some (Char.ofNat 8)
  else if c = 'f' then some (Char.ofNat 12)
  else if c = 'n' then some '\n'
  else if c = 'r' then some '\r'
  else if c = 't' then some '\t'
  else none

/-- An escape from behind its backslash, in the string that starts at `start`. -/
def escape (start index : Nat) : List Char → Except (Fault × Nat) (Char × Nat)
  | [] => .error (.unterminatedString, start)
  | c :: cs =>
    if c = 'u' then unicodeEscape index cs
    else
      match simpleEscape? c with
      | some d => .ok (d, 1)
      | none => .error (.escape, index)

/-- The rest of the string that starts at `start`: its text and the index behind its closing
quote. `done` is the text so far, last character first. -/
def stringBody (start index : Nat) (done cs : List Char) : Except (Fault × Nat) (String × Nat) :=
  match cs with
  | [] => .error (.unterminatedString, start)
  | c :: rest =>
    if c = '"' then .ok (String.ofList done.reverse, index + 1)
    else if c.toNat < 32 then .error (.controlCharacter, index)
    else if c = '\\' then
      match escape start index rest with
      | .error fault => .error fault
      | .ok (d, n) => stringBody start (index + 1 + n) (d :: done) (rest.drop n)
    else stringBody start (index + 1) (c :: done) rest
termination_by cs.length
decreasing_by all_goals (simp; try omega)

/-- The number a text starts with and how many characters it takes; a fraction or an exponent
makes it a float. -/
def number (cs : List Char) : Option (Token × Nat) :=
  let unsigned := if cs.head? = some '-' then cs.drop 1 else cs
  let signWidth := cs.length - unsigned.length
  let whole :=
    if unsigned.head? = some '0' then ['0'] else unsigned.takeWhile Char.isDigit
  if whole.isEmpty then none
  else
    let afterWhole := unsigned.drop whole.length
    let fraction :=
      if afterWhole.head? = some '.' then (afterWhole.drop 1).takeWhile Char.isDigit else []
    let fractionWidth := if fraction.isEmpty then 0 else fraction.length + 1
    let afterFraction := afterWhole.drop fractionWidth
    let marked := match afterFraction with
      | [] => false
      | c :: _ => Numeral.isExponentMark c
    let signed := marked && Numeral.startsSigned (afterFraction.drop 1)
    let markWidth := if signed then 2 else 1
    let power := if marked then (afterFraction.drop markWidth).takeWhile Char.isDigit else []
    let powerWidth := if power.isEmpty then 0 else power.length + markWidth
    let taken := signWidth + whole.length + fractionWidth + powerWidth
    if fraction.isEmpty && power.isEmpty then
      match Numeral.natural (whole.map fun c => c.toNat - 48) with
      | .error e => some (.badNumber e, taken)
      | .ok n => some (.scalar (.int (if signWidth = 0 then n else -n)), taken)
    else
      (Numeral.scan (cs.take taken)).map fun d => (.scalar (.float d.1.toFloat), taken)

/-- The names of values, and the values. -/
def names : List (String × Json) :=
  [("null", .null), ("true", .bool true), ("false", .bool false), ("NaN", .float (0.0 / 0.0)),
    ("Infinity", .float Decimal.infinity), ("-Infinity", .float (-Decimal.infinity))]

/-- The name a text starts with. -/
def name? (cs : List Char) : Option (Token × Nat) :=
  (names.find? fun e => e.1.toList.isPrefixOf cs).map fun e => (.scalar e.2, e.1.length)

/-- The token that starts with the character `c` at this index, and how many characters it takes.
-/
def next (index : Nat) (c : Char) (rest : List Char) : Token × Nat :=
  if c = '[' then (.openList, 1)
  else if c = ']' then (.closeList, 1)
  else if c = '\x7b' then (.openObject, 1)
  else if c = '\x7d' then (.closeObject, 1)
  else if c = ',' then (.comma, 1)
  else if c = ':' then (.colon, 1)
  else if c = '"' then
    match stringBody index (index + 1) [] rest with
    | .ok (s, stop) => (.text s, stop - index)
    | .error (fault, at?) => (.badText fault at?, 1)
  else ((name? (c :: rest)).or (number (c :: rest))).getD (.junk, 1)

/-- The token after which nothing is read. -/
def isLast : Token → Bool
  | .badText _ _ => true
  | .badNumber _ => true
  | .junk => true
  | _ => false

/-- Blanks between tokens. -/
def isGap (c : Char) : Bool := c == ' ' || c == '\t' || c == '\n' || c == '\r'

/-- The tokens of a text that starts at this index, in front of those already read, last first. -/
def scan (index : Nat) (done : List (Token × Nat)) (cs : List Char) : List (Token × Nat) :=
  match cs with
  | [] => done
  | c :: rest =>
    if isGap c then scan (index + 1) done rest
    else
      let (t, n) := next index c rest
      if isLast t then (t, index) :: done
      else scan (index + 1 + (n - 1)) ((t, index) :: done) (rest.drop (n - 1))
termination_by cs.length
decreasing_by all_goals (simp; try omega)

end Token

end Breadboard.Json
