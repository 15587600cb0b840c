import Breadboard.Json.Basic
import Breadboard.Decimal.Layout
import Breadboard.Text.Quoted

/-!
# Writing JSON

Two written forms, on one line and with one item to a line, and the display form, in which values
appear inside names and messages. Written text is ASCII: other characters are escaped by their
UTF-16 units.
-/

namespace Breadboard

open Text

namespace Json

/-- The escape of one UTF-16 unit. -/
def unitEscape (n : Nat) : List Char := '\\' :: 'u' :: hexDigits 4 n

/-- One character of a string. -/
def escaped (c : Char) : List Char :=
  if c = '"' then ['\\', '"']
  else if c = '\\' then ['\\', '\\']
  else if c = '\n' then ['\\', 'n']
  else if c = '\r' then ['\\', 'r']
  else if c = '\t' then ['\\', 't']
  else if c.toNat = 8 then ['\\', 'b']
  else if c.toNat = 12 then ['\\', 'f']
  else if 32 ≤ c.toNat ∧ c.toNat < 127 then [c]
  else if c.toNat < 0x10000 then unitEscape c.toNat
  else
    let n := c.toNat - 0x10000
    unitEscape (0xD800 + n / 0x400) ++ unitEscape (0xDC00 + n % 0x400)

/-- A string in its quotes. -/
def stringChars (s : String) : List Char := '"' :: s.toList.flatMap escaped ++ ['"']

/-- A float; those that are not finite have names. -/
def floatText (f : Float) : String :=
  if f.isFinite then Real.text f
  else if f.isNaN then "NaN"
  else if f < 0.0 then "-Infinity" else "Infinity"

/-- Values with no value inside them. -/
def scalarChars : Json → List Char
  | .null => "null".toList
  | .bool b => (if b then "true" else "false").toList
  | .int n => (toString n).toList
  | .float f => (floatText f).toList
  | .text s => stringChars s
  | .list _ => ['[', ']']
  | .object _ => ['\x7b', '\x7d']

mutual

/-- A value on one line. -/
def compactChars : Json → List Char
  | .list items => '[' :: compactItems items ++ [']']
  | .object fields => '\x7b' :: compactFields fields ++ ['\x7d']
  | j => scalarChars j

/-- Items, with a comma and a blank between them. -/
def compactItems : List Json → List Char
  | [] => []
  | [j] => compactChars j
  | j :: js => compactChars j ++ ',' :: ' ' :: compactItems js

/-- Fields, with a comma and a blank between them. -/
def compactFields : List (String × Json) → List Char
  | [] => []
  | [(k, j)] => stringChars k ++ ':' :: ' ' :: compactChars j
  | (k, j) :: rest =>
    stringChars k ++ ':' :: ' ' :: compactChars j ++ ',' :: ' ' :: compactFields rest

end

/-- A value on one line. -/
def compact (j : Json) : String := String.ofList (compactChars j)

/-- A line break and the margin of a depth. -/
def margin (depth : Nat) : List Char := '\n' :: List.replicate (2 * depth) ' '

mutual

/-- A value that stands at a depth, with an item to a line. -/
def indentedChars (depth : Nat) : Json → List Char
  | .list items =>
    if items.isEmpty then ['[', ']']
    else '[' :: margin (depth + 1) ++ indentedItems (depth + 1) items ++ margin depth ++ [']']
  | .object fields =>
    if fields.isEmpty then ['\x7b', '\x7d']
    else
      '\x7b' :: margin (depth + 1) ++ indentedFields (depth + 1) fields ++ margin depth
        ++ ['\x7d']
  | j => scalarChars j

/-- Items at a depth, each on a line of its own. -/
def indentedItems (depth : Nat) : List Json → List Char
  | [] => []
  | [j] => indentedChars depth j
  | j :: js => indentedChars depth j ++ ',' :: margin depth ++ indentedItems depth js

/-- Fields at a depth, each on a line of its own. -/
def indentedFields (depth : Nat) : List (String × Json) → List Char
  | [] => []
  | [(k, j)] => stringChars k ++ ':' :: ' ' :: indentedChars depth j
  | (k, j) :: rest =>
    stringChars k ++ ':' :: ' ' :: indentedChars depth j ++ ',' :: margin depth
      ++ indentedFields depth rest

end

/-- A value with an item to a line, indented by two blanks for each depth. -/
def indented (j : Json) : String := String.ofList (indentedChars 0 j)

mutual

/-- A value as it appears inside others: text in quotes. -/
def literalChars : Json → List Char
  | .null => "None".toList
  | .bool b => (if b then "True" else "False").toList
  | .int n => (toString n).toList
  | .float f => (Real.text f).toList
  | .text s => quotedChars s.toList
  | .list items => '[' :: literalItems items ++ [']']
  | .object fields => '\x7b' :: literalFields fields ++ ['\x7d']

/-- Items, with a comma and a blank between them. -/
def literalItems : List Json → List Char
  | [] => []
  | [j] => literalChars j
  | j :: js => literalChars j ++ ',' :: ' ' :: literalItems js

/-- Fields, with a comma and a blank between them. -/
def literalFields : List (String × Json) → List Char
  | [] => []
  | [(k, j)] => quotedChars k.toList ++ ':' :: ' ' :: literalChars j
  | (k, j) :: rest =>
    quotedChars k.toList ++ ':' :: ' ' :: literalChars j ++ ',' :: ' ' :: literalFields rest

end

/-- The text of a value inside a message: text in quotes. -/
def literal (j : Json) : String := String.ofList (literalChars j)

/-- The text of a value used as a name: text as it is. The value comes from a reader that refuses
whole numbers of more than 4300 digits, so every number in it has a text. -/
def display : Json → String
  | .text s => s
  | j => literal j

end Json

end Breadboard
