import Breadboard.Text.Quoted

/-!
# Paths

A path is a list of names, from the working directory or, if it is absolute, from a root. Empty
names and single dots in its text say nothing.
-/

namespace Breadboard

/-- A path: its root, empty if it starts at the working directory, and its names. -/
structure Path where
  root : String
  names : List String
  deriving DecidableEq, Repr

namespace Path

/-- The root of a path: exactly two slashes are a root of their own, any other number is one. -/
def rootOf (cs : List Char) : String :=
  match (cs.takeWhile (· == '/')).length with
  | 0 => ""
  | 2 => "//"
  | _ => "/"

/-- The path of a text. -/
def ofText (s : String) : Path :=
  let names := (s.toList.splitOnP (· == '/')).filter fun n => !(n.isEmpty || n == ['.'])
  ⟨rootOf s.toList, names.map String.ofList⟩

/-- Whether a path does not start at the working directory. -/
def isAbsolute (p : Path) : Bool := !p.root.isEmpty

/-- The text of a path; the working directory is a single dot. -/
def text (p : Path) : String :=
  if p.root.isEmpty && p.names.isEmpty then "." else p.root ++ "/".intercalate p.names

/-- The number of bytes that the text of a path stays below. -/
def limit : Nat := 4096

/-- Whether a text holds the character that ends a path for the system. -/
def hasNul (s : String) : Bool := s.toList.contains '\x00'

/-- The last name of a path, empty if it has none. -/
def name (p : Path) : String := p.names.getLastD ""

/-- A name up to its last dot, unless the name starts or ends with that dot. -/
def stemOf (name : List Char) : List Char :=
  match name.reverse.span (· != '.') with
  | (_, []) => name
  | (extension, _ :: before) =>
    if extension.isEmpty || before.isEmpty then name else before.reverse

/-- The last name of a path without its extension. -/
def stem (p : Path) : String := String.ofList (stemOf p.name.toList)

/-- A path with one more name. -/
def child (p : Path) (name : String) : Path := ⟨p.root, p.names ++ [name]⟩

/-- The order of paths: name by name, shorter ones first. -/
def namesLe : List String → List String → Bool
  | [], _ => true
  | _ :: _, [] => false
  | a :: as, b :: bs => if a = b then namesLe as bs else decide (a < b)

/-- Whether a path comes before another or is the same. -/
def le (a b : Path) : Bool :=
  let key := fun p : Path => if p.isAbsolute then p.root :: p.names else p.names
  namesLe (key a) (key b)

end Path

end Breadboard
