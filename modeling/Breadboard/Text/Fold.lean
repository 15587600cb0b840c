/-!
# Matching words regardless of case

Fixed words are written here in small ASCII letters. A character reads as such a letter if it is
the letter, its capital, or one of the four letters beyond ASCII that share a case pair with it:
the dotless i, the capital I with a dot, the long s and the kelvin sign.
-/

namespace Breadboard.Text

/-- Whether `c` reads as the small letter, digit or sign `p`. -/
def foldsTo (p c : Char) : Bool :=
  c.toLower == p
    || (p == 'i' && (c.toNat == 0x130 || c.toNat == 0x131))
    || (p == 's' && c.toNat == 0x17F)
    || (p == 'k' && c.toNat == 0x212A)

/-- What follows the word at the start of a text. -/
def skipWord : (word cs : List Char) → Option (List Char)
  | [], cs => some cs
  | _ :: _, [] => none
  | p :: ps, c :: cs => if foldsTo p c then skipWord ps cs else none

/-- Whether the word stands somewhere in the text. -/
def holdsWord (word : String) : List Char → Bool
  | [] => (skipWord word.toList []).isSome
  | c :: cs => (skipWord word.toList (c :: cs)).isSome || holdsWord word cs

/-- The first result of `read` at the ends of a text, longest first. -/
def firstMatch {α : Type} (read : List Char → Option α) : List Char → Option α
  | [] => read []
  | c :: cs => (read (c :: cs)).or (firstMatch read cs)

/-- A text with its ASCII capitals made small. -/
def lowerAscii (cs : List Char) : List Char := cs.map Char.toLower

/-- A text with its small ASCII letters made capital. -/
def upperAscii (cs : List Char) : List Char := cs.map Char.toUpper

/-- Whether `part` occurs in a text, letter for letter. -/
def holds (part : List Char) : List Char → Bool
  | [] => part.isEmpty
  | c :: cs => part.isPrefixOf (c :: cs) || holds part cs

end Breadboard.Text
