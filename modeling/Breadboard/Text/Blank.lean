/-!
# Blanks

Blank characters, trimming and splitting at blanks. Blanks are the white space of every script,
line and paragraph separators, and the four information separators of ASCII.
-/

namespace Breadboard.Text

/-- A blank separates words and is trimmed at the ends of a text. -/
def isBlank (c : Char) : Bool :=
  let n := c.toNat
  (9 ≤ n && n ≤ 13) || (28 ≤ n && n ≤ 32) || n == 0x85 || n == 0xA0 || n == 0x1680
    || (0x2000 ≤ n && n ≤ 0x200A) || n == 0x2028 || n == 0x2029 || n == 0x202F || n == 0x205F
    || n == 0x3000

/-- A text without the blanks it starts with. -/
def trimStart (cs : List Char) : List Char := cs.dropWhile isBlank

/-- A text without the blanks it ends with. -/
def trimEnd (cs : List Char) : List Char := (cs.reverse.dropWhile isBlank).reverse

/-- A text without the blanks around it. -/
def trim (cs : List Char) : List Char := trimEnd (trimStart cs)

@[simp] theorem trim_nil : trim [] = [] := rfl

/-- The words of a text: its longest runs without a blank. -/
def words (cs : List Char) : List (List Char) :=
  (cs.splitOnP isBlank).filter (! ·.isEmpty)

/-- A string without the blanks around it. -/
def trimmed (s : String) : String := String.ofList (trim s.toList)

/-- Whether nothing but blanks is left. -/
def allBlank (cs : List Char) : Bool := cs.all isBlank

end Breadboard.Text
