import Breadboard.Command.Run
import Breadboard.Files.Mention
import Std.Time.Format

/-!
# The program

Reads the files that the arguments mention, runs the command on them, writes the files it changed,
and prints what it printed. No engine is found from here, so a simulation says that it is missing;
output that an engine has saved is decoded.
-/

namespace Breadboard.Program

/-- The path of names from the root. -/
def pathOf (names : List String) : String := "/" ++ "/".intercalate names

/-- The files and directories at these names and below that are wanted and can be read. -/
partial def gather (here : List String) (wanted : List String → Bool) (names : List String) :
    IO FileTree := do
  let directory ← IO.FS.realPath (pathOf names)
  let mut found : FileTree := ⟨[], [], here⟩
  for entry in ← try directory.readDir catch _ => pure #[] do
    let inner := names ++ [entry.fileName]
    if wanted inner then
      try
        match (← entry.path.metadata).type with
        | .dir =>
          let below ← gather here wanted inner
          found := { found with
            files := found.files ++ below.files
            directories := found.directories ++ inner :: below.directories }
        | .file =>
          let bytes ← IO.FS.readBinFile entry.path
          found := { found with files := found.files ++ [(inner, bytes.toList)] }
        | _ => pure ()
      catch _ => pure ()
  return found

/-- Writes what is in the tree `after` and not in the tree `before`. -/
def store (before after : FileTree) : IO Unit := do
  for names in after.directories do
    unless before.directories.contains names do IO.FS.createDirAll (pathOf names)
  for (names, bytes) in after.changedSince before do
    IO.FS.writeBinFile (pathOf names) ⟨bytes.toArray⟩

/-- Runs the program in the working directory. -/
def run (args : List String) : IO UInt32 := do
  let here := (Path.ofText (← IO.FS.realPath ".").toString).names
  let files ← gather here (Mention.wanted here args) []
  let date := (← Std.Time.PlainDateTime.now).format "uuuu-MM-dd HH:mm:ss"
  let environment ← IO.getEnv "NGSPICE_PATH"
  let ending := Command.runProgram args files (fun _ => {}) environment date .usual
  store files ending.console.files
  IO.print ending.console.output
  IO.eprint ending.console.report
  match ending.code with
  | .ok code => return UInt32.ofNat code
  | .error crash =>
    IO.eprintln crash.message
    return 1

end Breadboard.Program

/-- The program. -/
def main (args : List String) : IO UInt32 := Breadboard.Program.run args
