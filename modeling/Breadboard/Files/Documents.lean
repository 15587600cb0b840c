import Breadboard.Circuit.Validation
import Breadboard.Files.Tree
import Breadboard.Json.Reader
import Breadboard.Netlist.NodeMap
import Breadboard.Settings

/-!
# Stored documents

Circuits, node maps and settings are JSON files. Loading one ends with the document or with the
first thing that is wrong: the file, its encoding, its JSON, or what the JSON says.
-/

namespace Breadboard

open Text

/-- Why a document cannot be loaded. -/
inductive DocumentError where
  | file (e : FileError)
  | encoding (e : Utf8Error)
  | json (e : Json.ReadError)
  | invalidCircuit (e : InvalidCircuit)
  | shape (e : ShapeError)
  | notANodeMap
  | settingsNotAnObject (path : String)
  | settings (e : SettingsError)

namespace DocumentError

/-- The wording of an error. -/
def message : DocumentError → String
  | .file e => e.message
  | .encoding e => e.message
  | .json e => e.message
  | .invalidCircuit e => e.message
  | .shape _ => "a value does not have the shape it should"
  | .notANodeMap => "Node map must be a JSON object of net name -> node index."
  | .settingsNotAnObject path => s!"Settings file {path} must contain a JSON object"
  | .settings e => e.message

/-- Whether an error is one of content that a loader is prepared for. Half of a surrogate pair is
none of these: it could be kept, but not be written. -/
def isExpected : DocumentError → Bool
  | .json (.malformed .unpairedSurrogate _ _ _) => false
  | .json (.tooDeep _) => false
  | .shape _ => false
  | .invalidCircuit .compoundId => false
  | .settings .outOfRange => false
  | _ => true

end DocumentError

namespace FileTree

/-- The text of a file. -/
def readText (t : FileTree) (p : Path) : Except DocumentError String :=
  match t.read p with
  | .error e => .error (.file e)
  | .ok bytes =>
    match decodeUtf8 bytes with
    | .error e => .error (.encoding e)
    | .ok cs => .ok (String.ofList (unifyNewlines cs))

/-- The JSON value in a file. -/
def readJson (t : FileTree) (n : Json.Nesting) (p : Path) : Except DocumentError Json := do
  match Json.read n (← t.readText p).toList with
  | .error e => throw (.json e)
  | .ok j => return j

end FileTree

namespace Circuit

/-- The circuit that a JSON value holds. -/
def ofDocument (j : Json) : Except DocumentError Circuit :=
  match InvalidCircuit.check j with
  | .error e => .error (.invalidCircuit e)
  | .ok () =>
    match Circuit.ofJson j with
    | .error e => .error (.shape e)
    | .ok circuit => .ok circuit

/-- The circuit in a file. -/
def load (t : FileTree) (n : Json.Nesting) (p : Path) : Except DocumentError Circuit := do
  ofDocument (← t.readJson n p)

end Circuit

namespace NodeMap

/-- The whole number that a value is. -/
def index? : Json → Option Int
  | .int n => some n
  | _ => none

/-- The node map that a JSON value holds. -/
def ofDocument (j : Json) : Except DocumentError NodeMap :=
  match j with
  | .object fields =>
    match fields.mapM fun f => (index? f.2).map (f.1, ·) with
    | some entries => .ok (.ofEntries entries)
    | none => .error .notANodeMap
  | _ => .error .notANodeMap

/-- The node map in a file. -/
def load (t : FileTree) (n : Json.Nesting) (p : Path) : Except DocumentError NodeMap := do
  ofDocument (← t.readJson n p)

end NodeMap

namespace Settings

/-- The settings that the JSON value of a file holds. -/
def ofDocument (environment : Option String) (p : Path) (j : Json) :
    Except DocumentError Settings :=
  match j with
  | .object fields =>
    match ofFields environment fields with
    | .error e => .error (.settings e)
    | .ok s => .ok s
  | _ => .error (.settingsNotAnObject p.text)

/-- The settings in a file. -/
def load (t : FileTree) (n : Json.Nesting) (environment : Option String) (p : Path) :
    Except DocumentError Settings := do
  ofDocument environment p (← t.readJson n p)

/-- The unknown keys met while the settings in a file are loaded. -/
def ignoredIn (t : FileTree) (n : Json.Nesting) (p : Path) : List String :=
  match t.readJson n p with
  | .ok (.object fields) => ignoredKeys fields
  | _ => []

end Settings

end Breadboard
