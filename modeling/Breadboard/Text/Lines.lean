/-!
# Lines

A text splits into lines at every line boundary, a carriage return and the line feed after it
being one. Text files are read with each of their three line ends as a line feed.
-/

namespace Breadboard.Text

/-- A character that ends a line: line feed, vertical tab, form feed, carriage return, the file,
group and record separators, next line, and the line and paragraph separators. -/
def endsLine (c : Char) : Bool :=
  let n := c.toNat
  (10 ≤ n && n ≤ 13) || (28 ≤ n && n ≤ 30) || n == 0x85 || n == 0x2028 || n == 0x2029

/-- The lines of a text whose first line began with the characters of `line`, last first. -/
def linesFrom (line : List Char) : List Char → List (List Char)
  | [] => if line.isEmpty then [] else [line.reverse]
  | c :: cs =>
    if c = '\r' then
      match cs with
      | '\n' :: rest => line.reverse :: linesFrom [] rest
      | rest => line.reverse :: linesFrom [] rest
    else if endsLine c then line.reverse :: linesFrom [] cs
    else linesFrom (c :: line) cs

/-- The lines of a text, without what ends them. -/
def lines (s : String) : List (List Char) := linesFrom [] s.toList

@[simp] theorem lines_empty : lines "" = [] := rfl

/-- Every carriage return and every carriage return with its line feed as a line feed. -/
def unifyNewlines : List Char → List Char
  | [] => []
  | c :: cs =>
    if c = '\r' then
      match cs with
      | '\n' :: rest => '\n' :: unifyNewlines rest
      | rest => '\n' :: unifyNewlines rest
    else c :: unifyNewlines cs

end Breadboard.Text
