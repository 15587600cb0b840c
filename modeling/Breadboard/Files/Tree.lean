import Breadboard.Files.Path
import Breadboard.Text.Lines
import Breadboard.Text.Utf8

/-!
# File trees

Files and directories by their names from the root on, and the working directory. Text is kept as
its UTF-8 bytes and is read with unified line ends.
-/

namespace Breadboard

open Text

/-- Files with their bytes, directories, and the working directory, by their names from the root
on. -/
structure FileTree where
  files : List (List String × List UInt8)
  directories : List (List String)
  here : List String
  deriving DecidableEq

/-- Why a file or directory cannot be used. -/
inductive FileFault where
  | missing
  | taken
  | notADirectory
  | isADirectory
  | nameTooLong
  | nul
  deriving DecidableEq, Repr

/-- A fault and the path it was met at. -/
structure FileError where
  fault : FileFault
  path : String
  deriving DecidableEq, Repr

namespace FileFault

/-- The number of a fault that the system reports. -/
def number? : FileFault → Option Nat
  | .missing => some 2
  | .taken => some 17
  | .notADirectory => some 20
  | .isADirectory => some 21
  | .nameTooLong => some 36
  | .nul => none

/-- The wording of a fault. -/
def message : FileFault → String
  | .missing => "No such file or directory"
  | .taken => "File exists"
  | .notADirectory => "Not a directory"
  | .isADirectory => "Is a directory"
  | .nameTooLong => "File name too long"
  | .nul => "embedded null byte"

end FileFault

/-- The number and the wording of the fault, and the path in quotes; the wording alone if the path
never reached the system. -/
def FileError.message (e : FileError) : String :=
  match e.fault.number? with
  | some n => s!"[Errno {n}] {e.fault.message}: {Text.quoted e.path}"
  | none => e.fault.message

/-- What a path leads to. -/
inductive Place where
  | file (bytes : List UInt8)
  | directory
  deriving DecidableEq

namespace FileTree

/-- The device that is empty and keeps nothing written to it. -/
def nullDevice : List String := ["dev", "null"]

/-- All that stands in a tree. -/
def entries (t : FileTree) : List (List String) :=
  t.here :: t.directories ++ nullDevice :: t.files.map (·.1)

/-- Whether names lead to a directory: it is the root or the working directory, it was made, or
something is in it. -/
def isDirectory (t : FileTree) (names : List String) : Bool :=
  names.isEmpty || (t.here :: t.directories).contains names ||
    t.entries.any fun other => names.isPrefixOf other && names.length < other.length

/-- The bytes of a file. -/
def bytes? (t : FileTree) (names : List String) : Option (List UInt8) := t.files.lookup names

/-- What stands at these names. -/
def at? (t : FileTree) (names : List String) : Option Place :=
  if names = nullDevice then some (.file [])
  else
    match t.bytes? names with
    | some bytes => some (.file bytes)
    | none => if t.isDirectory names then some .directory else none

/-- Where the names of a path lead from the directory `start`: the names from the root on, whether
or not something stands there. Two dots lead to the directory above, and from the root to the
root. -/
def resolveFrom (t : FileTree) (start : List String) :
    List String → Except FileFault (List String)
  | [] => .ok start
  | name :: rest =>
    match t.at? start with
    | none => .error .missing
    | some (.file _) => .error .notADirectory
    | some .directory =>
      if 255 < name.utf8ByteSize then .error .nameTooLong
      else if name = ".." then t.resolveFrom start.dropLast rest
      else t.resolveFrom (start ++ [name]) rest

/-- Where a path leads. -/
def resolve (t : FileTree) (p : Path) : Except FileFault (List String) :=
  if p.names.any Path.hasNul then .error .nul
  else if Path.limit ≤ p.text.utf8ByteSize then .error .nameTooLong
  else t.resolveFrom (if p.isAbsolute then [] else t.here) p.names

/-- What a path leads to. -/
def find (t : FileTree) (p : Path) : Except FileFault Place :=
  match t.resolve p with
  | .error e => .error e
  | .ok names =>
    match t.at? names with
    | none => .error .missing
    | some place => .ok place

/-- Whether a path leads to something; a name that is too long is an error. -/
def present (t : FileTree) (p : Path) : Except FileError Bool :=
  match t.find p with
  | .ok _ => .ok true
  | .error .nameTooLong => .error ⟨.nameTooLong, p.text⟩
  | .error _ => .ok false

/-- Whether a path leads to a directory; a name that is too long is an error. -/
def leadsToDirectory (t : FileTree) (p : Path) : Except FileError Bool :=
  match t.find p with
  | .ok place => .ok (place == .directory)
  | .error .nameTooLong => .error ⟨.nameTooLong, p.text⟩
  | .error _ => .ok false

/-- The bytes of the file at a path. -/
def read (t : FileTree) (p : Path) : Except FileError (List UInt8) :=
  match t.find p with
  | .ok (.file bytes) => .ok bytes
  | .ok .directory => .error ⟨.isADirectory, p.text⟩
  | .error fault => .error ⟨fault, p.text⟩

/-- The file at these names with other bytes. -/
def put (t : FileTree) (names : List String) (bytes : List UInt8) : FileTree :=
  if names = nullDevice then t
  else if (t.files.map (·.1)).contains names then
    { t with files := t.files.map fun f => if f.1 = names then (names, bytes) else f }
  else { t with files := t.files ++ [(names, bytes)] }

/-- The tree with a text written to a path. -/
def write (t : FileTree) (p : Path) (text : String) : Except FileError FileTree :=
  match t.find p, t.resolve p with
  | .ok .directory, _ => .error ⟨.isADirectory, p.text⟩
  | _, .error fault => .error ⟨fault, p.text⟩
  | _, .ok names => .ok (t.put names (encodeUtf8 text.toList))

/-- The tree with one more directory, in a directory that it has. -/
def makeDirectory (t : FileTree) (p : Path) : Except FileFault FileTree :=
  match t.resolve p with
  | .error e => .error e
  | .ok names =>
    if (t.at? names).isSome then .error .taken
    else .ok { t with directories := t.directories ++ [names] }

/-- The tree with a directory at a path, in a directory that it has, unless one is there. -/
def provideDirectory (t : FileTree) (p : Path) : Except FileError FileTree :=
  match t.makeDirectory p, t.find p with
  | .ok made, _ => .ok made
  | .error .taken, .ok .directory => .ok t
  | .error fault, _ => .error ⟨fault, p.text⟩

/-- The tree with the directories of a path that `root` and names, the last first, make up. -/
def provideDirectories (t : FileTree) (root : String) : List String → Except FileError FileTree
  | [] => t.provideDirectory ⟨root, []⟩
  | name :: above =>
    let p : Path := ⟨root, (name :: above).reverse⟩
    match t.makeDirectory p with
    | .error .missing =>
      match t.provideDirectories root above with
      | .error e => .error e
      | .ok t => t.provideDirectory p
    | _ => t.provideDirectory p

/-- The tree with a directory at a path and at every path above it. -/
def makeDirectories (t : FileTree) (p : Path) : Except FileError FileTree :=
  t.provideDirectories p.root p.names.reverse

/-- The files of a tree that are new or have other bytes than in the tree `before`. -/
def changedSince (t before : FileTree) : List (List String × List UInt8) :=
  t.files.filter fun f => before.bytes? f.1 != some f.2

/-- The files at and below the working directory, by their names from there. -/
def filesHere (t : FileTree) : List (List String × List UInt8) :=
  t.files.filterMap fun f =>
    if t.here.isPrefixOf f.1 then some (f.1.drop t.here.length, f.2) else none

/-- The names in the directory at these names. -/
def list (t : FileTree) (names : List String) : List String :=
  (t.entries.filterMap fun other =>
    if names.isPrefixOf other then other[names.length]? else none).eraseDups

end FileTree

end Breadboard
