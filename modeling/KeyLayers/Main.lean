import KeyLayers.Cli
import KeyLayers.FileSystem.Edit
import Std.Time.Format

/-!
# The program

The files that a command line can be about are taken into an image, the command
line is carried out on the image, and what it has changed there is changed in
the files themselves.  All decisions are made by `KeyLayers.Cli.run`.
-/

namespace KeyLayers.Program

/-- What is printed when a command line is not understood. -/
def usage : String :=
  "Usage: key-layers [-s SPEC] [-o OUTPUT] [-v] COMMAND\n\n" ++
    "Commands: build [--no-backup], check, print, vars, backups, restore BACKUP\n"

/-- The reading of the clock. -/
def clock : IO Timestamp := do
  let now ← Std.Time.PlainDateTime.now
  return {
    year := now.year.toInt
    month := now.month.toNat
    day := now.day.toNat
    hour := now.hour.toNat
    minute := now.minute.toNat
    second := now.second.toNat }

/-- The variables of the environment that a command line always depends on. -/
def fixedNames : List String :=
  ["HOME", "HYPER_SUBLAYERS_SPEC", "KARABINER_CONFIG"]

/-- The names that follow a dollar sign in a text. -/
def namesIn (text : String) : List String :=
  ((text.splitOn "$").drop 1).map fun part =>
    let bare := part.toList.dropWhile (· == '\x7b')
    String.ofList (bare.takeWhile Environment.isNameChar)

/-- The variables with the given names, as far as they are set. -/
def environmentOf (names : List String) : IO Environment := do
  let values ← names.mapM fun name => do
    return (← IO.getEnv name).map (name, ·)
  return ⟨values.filterMap id⟩

/-- The names of the entries of a directory, if there is one at a path. -/
def entryNames (path : Path) : IO (Option (List String)) := do
  try
    let directory ← IO.FS.realPath path.text
    return some ((← directory.readDir).toList.map (·.fileName))
  catch _ => return none

/-- Takes what is at a path into an image of the files. -/
def takeIn (image : FileSystem) (path : Path) : IO FileSystem := do
  try return image.add path (← IO.FS.readBinFile path.text)
  catch _ =>
    if (← entryNames path).isSome then return (image.makeDirectories path).2
    else return image

/-- Takes an output, its directory and its backups into an image of the files. -/
def takeOutput (image : FileSystem) (path : Path) : IO FileSystem := do
  let backups := Output.backups ⟨path⟩
  let image ← [path.directory, path, backups].foldlM takeIn image
  let names := (← entryNames backups).getD []
  (names.map backups.child).foldlM takeIn image

/-- The paths that may turn out to be that of the output. -/
def outputsOf (environment : Environment) (invocation : Cli.Invocation) (text : String) :
    List Path :=
  let configured := match Spec.ofText text with
    | .ok spec => [spec.outputPath environment invocation.output, spec.outputPath environment none]
    | .error _ => []
  ((invocation.output.map environment.expandTilde).toList ++ configured).map .ofText

/-- Changes the files themselves where an image of them has changed. -/
def writeBack (before after : FileSystem) : IO Unit := do
  let textOf (place : Place) : String := "/" ++ String.intercalate "/" place
  for (place, entry) in after.entries do
    unless before.entryAt? place = some entry do
      match entry.node with
      | .directory => IO.FS.createDirAll (textOf place)
      | .file content =>
          let draft := textOf place ++ ".new"
          IO.FS.writeBinFile draft content
          IO.FS.rename draft (textOf place)
      | .link _ => pure ()
  for (place, _) in before.entries do
    if (after.entryAt? place).isNone then IO.FS.removeFile (textOf place)

/-- Carries out a command line that is understood. -/
def carryOut (invocation : Cli.Invocation) (arguments : List String) : IO UInt32 := do
  let here := Path.ofText (toString (← IO.currentDir))
  let empty : FileSystem := { workingPlace := here.segments.drop 1 }
  let specPath := Path.ofText ((← environmentOf fixedNames).expandTilde invocation.spec)
  let image ← takeIn (empty.makeDirectories here).2 specPath
  let text := (image.readText specPath).toOption.getD ""
  let named := namesIn text ++ namesIn (invocation.output.getD "")
  let environment ← environmentOf (fixedNames ++ named)
  let image ← (outputsOf environment invocation text).foldlM takeOutput image
  let image ← match invocation.command with
    | .restore backup => takeIn image (.ofText backup)
    | _ => pure image
  let outcome := Cli.run environment (← clock) image arguments
  writeBack image outcome.files
  IO.print outcome.printed
  IO.eprint (outcome.failure.getD "")
  return outcome.code.toUInt32

end KeyLayers.Program

/-- Runs the program. -/
def main (arguments : List String) : IO UInt32 := do
  let environment ← KeyLayers.Program.environmentOf KeyLayers.Program.fixedNames
  match KeyLayers.Cli.Invocation.ofArguments environment arguments with
  | .ok invocation => KeyLayers.Program.carryOut invocation arguments
  | .error .misuse => do
      IO.eprint KeyLayers.Program.usage
      return 2
  | .error _ => do
      IO.print KeyLayers.Program.usage
      return 0
