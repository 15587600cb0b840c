import Breadboard.Files.Tree

/-!
# Glob patterns

In a pattern a star stands for any run of characters, a question mark for any one, and brackets for
any one of a set or, behind an exclamation mark, any other. Names that start with a dot are matched
only by patterns that do.
-/

namespace Breadboard.Glob

/-- One part of a pattern for a name. -/
inductive Piece where
  | char (c : Char)
  | any
  | run
  | set (negated : Bool) (ranges : List (Char × Char))
  deriving DecidableEq, Repr

/-- The ranges of a set; one character is a range of its own, and a hyphen between two makes a
range of all between. -/
def ranges : List Char → List (Char × Char)
  | a :: '-' :: b :: rest => (a, b) :: ranges rest
  | a :: rest => (a, a) :: ranges rest
  | [] => []

/-- The inside of a set and what follows it, from behind the opening bracket. The first character
inside, or the first behind the exclamation mark, may be a closing bracket. -/
def setBody (cs : List Char) : Option (List Char × List Char) :=
  let (mark, rest) := match cs with
    | '!' :: rest => (['!'], rest)
    | rest => ([], rest)
  let (first, rest) := match rest with
    | ']' :: rest => ([']'], rest)
    | rest => ([], rest)
  match rest.dropWhile (· != ']') with
  | [] => none
  | _ :: after => some (mark ++ first ++ rest.takeWhile (· != ']'), after)

/-- The set of an inside. -/
def setOf : List Char → Piece
  | '!' :: rest => if rest.isEmpty then .any else .set true (ranges rest)
  | inside => .set false (ranges inside)

/-- The pieces of a pattern, where `skip` characters at its start belong to a piece before them. -/
def piecesFrom (skip : Nat) : List Char → List Piece
  | [] => []
  | c :: cs =>
    if skip ≠ 0 then piecesFrom (skip - 1) cs
    else if c = '*' then .run :: piecesFrom 0 cs
    else if c = '?' then .any :: piecesFrom 0 cs
    else if c = '[' then
      match setBody cs with
      | none => .char c :: piecesFrom 0 cs
      | some (inside, after) => setOf inside :: piecesFrom (cs.length - after.length) cs
    else .char c :: piecesFrom 0 cs

/-- The pieces of a pattern. -/
def pieces (pattern : String) : List Piece := piecesFrom 0 pattern.toList

/-- Whether one character suits a piece that stands for one. -/
def suits (p : Piece) (c : Char) : Bool :=
  match p with
  | .char d => c == d
  | .any => true
  | .run => true
  | .set negated ranges => negated != ranges.any fun r => r.1 ≤ c && c ≤ r.2

/-- For each place, whether it or a later one is marked. -/
def orLater : List Bool → List Bool
  | [] => []
  | b :: bs =>
    let later := orLater bs
    (b || later.headD false) :: later

@[simp] theorem length_orLater (bs : List Bool) : (orLater bs).length = bs.length := by
  induction bs with
  | nil => rfl
  | cons b bs ih => simp [orLater, ih]

/-- For each end of `cs`, from the whole to the empty one, whether the pieces match it. -/
def marks : List Piece → List Char → List Bool
  | [], cs => cs.map (fun _ => false) ++ [true]
  | .run :: ps, cs => orLater (marks ps cs)
  | p :: ps, cs => List.zipWith (fun c b => suits p c && b) cs (marks ps cs).tail ++ [false]

theorem length_marks (ps : List Piece) (cs : List Char) :
    (marks ps cs).length = cs.length + 1 := by
  induction ps with
  | nil => simp [marks]
  | cons p ps ih => cases p <;> simp [marks, ih]

/-- Whether the pieces match the whole of `cs`. -/
def suit (ps : List Piece) (cs : List Char) : Bool := (marks ps cs).headD false

/-- Whether a pattern matches a whole name. -/
def matchesName (pattern name : String) : Bool := suit (pieces pattern) name.toList

/-- Whether a pattern stands for more than one name. -/
def isPattern (s : String) : Bool := s.toList.any fun c => c == '*' || c == '?' || c == '['

/-- Whether a name starts with a dot. -/
def isHidden (name : String) : Bool := name.toList.head? == some '.'

/-- The names that a pattern matches in a directory, whose text is empty or ends in a slash. -/
def namesIn (t : FileTree) (directory pattern : String) : List String :=
  match t.resolve (Path.ofText directory) with
  | .error _ => []
  | .ok names =>
    if t.isDirectory names && directory.utf8ByteSize ≤ Path.limit then
      (t.list names).filter fun n => (isHidden pattern || !isHidden n) && matchesName pattern n
    else []

/-- Whether a text as it stands leads to something. -/
def leads (t : FileTree) (text : String) : Bool :=
  text.utf8ByteSize < Path.limit && (t.find (Path.ofText text)).toOption.isSome

/-- The texts that names and patterns lead to from a directory, whose text is empty or ends in a
slash. -/
def below (t : FileTree) (directory : String) : List String → List String
  | [] => []
  | [pattern] =>
    if isPattern pattern then (namesIn t directory pattern).map (directory ++ ·)
    else if leads t (directory ++ pattern) then [directory ++ pattern] else []
  | pattern :: rest =>
    let next := if isPattern pattern then namesIn t directory pattern else [pattern]
    next.flatMap fun name => below t (directory ++ name ++ "/") rest

/-- Whether a pattern stands for directories only: it ends in a slash, or in a name that is a
single dot. -/
def wantsDirectory (names : List String) : Bool :=
  names.getLast? == some "" || names.getLast? == some "."

/-- The names of a pattern. Empty ones at its start stand for a root and one at its end for a
directory; slashes in a row count once elsewhere. -/
def namesOf (pattern : String) : List String :=
  let (root, names) := ((pattern.toList.splitOnP (· == '/')).map String.ofList).span (·.isEmpty)
  root ++ names.dropLast.filter (! ·.isEmpty) ++ names.getLast?.toList

/-- The paths that a pattern leads to. The directory in front of its first star is looked into as it
is written. -/
def paths (t : FileTree) (pattern : String) : Except FileError (List Path) :=
  let names := namesOf pattern
  let fixed := names.takeWhile fun n => !isPattern n
  if fixed.length < names.length && fixed.any Path.hasNul then .error ⟨.nul, pattern⟩
  else
    .ok <| ((below t "" names).map Path.ofText).filter fun p =>
      !wantsDirectory names || (t.leadsToDirectory p).toOption.getD false

end Breadboard.Glob
