/-!
# Reading and writing UTF-8

`decodeUtf8` reads bytes as text and says where and why it stops at the first malformed sequence:
at a byte that starts no character, at the well-formed part of a character that goes on wrongly, or
at a character cut off by the end.
-/

namespace Breadboard.Text

/-- Why bytes are no text. -/
inductive Utf8Fault where
  | startByte
  | continuation
  | truncated
  deriving DecidableEq, Repr

/-- The malformed bytes: position and value of the first, and how many there are. -/
structure Utf8Error where
  position : Nat
  byte : Nat
  size : Nat
  fault : Utf8Fault
  deriving DecidableEq, Repr

/-- The wording of a fault. -/
def Utf8Fault.message : Utf8Fault → String
  | .startByte => "invalid start byte"
  | .continuation => "invalid continuation byte"
  | .truncated => "unexpected end of data"

/-- The two lower digits of a byte in base sixteen. -/
def hexByte (n : Nat) : String :=
  String.ofList [Nat.digitChar (n / 16 % 16), Nat.digitChar (n % 16)]

/-- One byte is named by its value, several by their positions. -/
def Utf8Error.message (e : Utf8Error) : String :=
  if e.size = 1 then
    s!"'utf-8' codec can't decode byte 0x{hexByte e.byte} in position {e.position}: "
      ++ e.fault.message
  else
    s!"'utf-8' codec can't decode bytes in position {e.position}-{e.position + e.size - 1}: "
      ++ e.fault.message

/-- How many bytes follow the first byte `b` of a character, and the least and greatest second
byte. -/
def sequenceShape (b : Nat) : Option (Nat × Nat × Nat) :=
  if b < 0xC2 then none
  else if b < 0xE0 then some (1, 0x80, 0xBF)
  else if b = 0xE0 then some (2, 0xA0, 0xBF)
  else if b = 0xED then some (2, 0x80, 0x9F)
  else if b < 0xF0 then some (2, 0x80, 0xBF)
  else if b = 0xF0 then some (3, 0x90, 0xBF)
  else if b < 0xF4 then some (3, 0x80, 0xBF)
  else if b = 0xF4 then some (3, 0x80, 0x8F)
  else none

/-- A character of several bytes that is being read: where it began, its first byte, its bits so
far, how many bytes were read and are still to come, and the bounds of the next. -/
structure PartialChar where
  position : Nat
  first : Nat
  bits : Nat
  taken : Nat
  missing : Nat
  low : Nat
  high : Nat

/-- What was read: the text so far, last character first, and the character begun. -/
structure Utf8State where
  text : List Char
  position : Nat
  partial? : Option PartialChar

/-- A byte that begins a character. -/
def Utf8State.begin (s : Utf8State) (b : Nat) : Except Utf8Error Utf8State :=
  if b < 0x80 then .ok ⟨Char.ofNat b :: s.text, s.position + 1, none⟩
  else
    match sequenceShape b with
    | none => .error ⟨s.position, b, 1, .startByte⟩
    | some (n, low, high) =>
      let bits := if n = 1 then b % 32 else if n = 2 then b % 16 else b % 8
      .ok ⟨s.text, s.position + 1, some ⟨s.position, b, bits, 1, n, low, high⟩⟩

/-- One more byte. -/
def Utf8State.step (s : Utf8State) (byte : UInt8) : Except Utf8Error Utf8State :=
  let b := byte.toNat
  match s.partial? with
  | none => s.begin b
  | some p =>
    if p.low ≤ b && b ≤ p.high then
      let bits := p.bits * 64 + b % 64
      if p.missing ≤ 1 then .ok ⟨Char.ofNat bits :: s.text, s.position + 1, none⟩
      else
        .ok ⟨s.text, s.position + 1,
          some ⟨p.position, p.first, bits, p.taken + 1, p.missing - 1, 0x80, 0xBF⟩⟩
    else .error ⟨p.position, p.first, p.taken, .continuation⟩

/-- The text of a byte sequence. -/
def decodeUtf8 (bytes : List UInt8) : Except Utf8Error (List Char) := do
  let s ← bytes.foldlM Utf8State.step ⟨[], 0, none⟩
  match s.partial? with
  | none => return s.text.reverse
  | some p => throw ⟨p.position, p.first, p.taken, .truncated⟩

/-- The bytes of a text. -/
def encodeUtf8 (cs : List Char) : List UInt8 := cs.flatMap String.utf8EncodeChar

end Breadboard.Text
