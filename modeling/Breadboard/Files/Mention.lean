import Breadboard.Files.Glob

/-!
# Files that arguments mention

A command works on the files its arguments name. An argument may be a path or a pattern as a whole,
or have one behind an equals sign or behind a hyphen and a letter.
-/

namespace Breadboard.Mention

/-- The parts of an argument that may be a path. -/
def parts (arg : String) : List (List Char) :=
  let cs := arg.toList
  [cs, (cs.dropWhile (· != '=')).drop 1, if cs.head? == some '-' then cs.drop 2 else []]

/-- The paths that arguments mention. -/
def paths (args : List String) : List Path :=
  ((args.flatMap parts).filter (! ·.isEmpty)).map fun cs => Path.ofText (String.ofList cs)

/-- The places that the names of a path go through from the directory `start`, and the circuit
files in the last of them. -/
def stops (start : List String) : List String → List (List String)
  | [] => [start, start ++ ["*.json"]]
  | ".." :: rest => start :: stops start.dropLast rest
  | name :: rest => start :: stops (start ++ [name]) rest

/-- Whether names lead towards what a path or pattern stands for. -/
def leads : (pattern names : List String) → Bool
  | _, [] => true
  | [], _ :: _ => false
  | p :: ps, n :: ns => (p == n || Glob.matchesName p n) && leads ps ns

/-- Whether names lead to what some argument mentions, seen from the directory `here`. -/
def wanted (here : List String) (args : List String) (names : List String) : Bool :=
  (paths args).any fun p =>
    (stops (if p.isAbsolute then [] else here) p.names).any (leads · names)

end Breadboard.Mention
