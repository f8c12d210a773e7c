import KeyLayers.Output.Backup
import KeyLayers.Output.Task

/-!
# The output and its backups

The document is written to one file, the output.  Its backups are in a directory
beside it.  The output is always replaced as a whole; whether it is there is
asked for each time, since other programs may write to it too.
-/

namespace KeyLayers

/-- The file that a document is written to. -/
structure Output where
  path : Path
deriving DecidableEq

namespace Output

/-- The directory of the backups, beside the output. -/
def backups (output : Output) : Path :=
  output.path.directory.child "backups"

/-- The output at a path, with a directory for its backups that can be written to. -/
def prepare (path : Path) : FileTask Output := do
  let output : Output := { path }
  unless (← get).isPresent output.backups do
    let (result, files) := (← get).makeDirectories output.backups
    set files
    if result matches .error _ then throw (.backupsNotWritable output.backups)
  if ← FileTask.look (·.isReadOnly output.backups) then
    throw (.backupsNotWritable output.backups)
  return output

variable (output : Output)

/-- Whether the output is there. -/
def isPresent : FileTask Bool :=
  return (← get).isPresent output.path

/-- The text of the output. -/
def readText : FileTask String := do
  unless ← output.isPresent do throw (.notFound output.path)
  FileTask.look (·.readText output.path)

/-- The document in the output. -/
def readDocument : FileTask Document := do
  let text ← output.readText
  FileTask.ofExcept ((Document.ofText text).mapError .unreadable)

/-- The name of the output. -/
def name : FileTask String :=
  match output.path.name? with
  | some name => return name
  | none => throw (.backupFailed (.nameless output.path))

/-- Copies the output to a backup that carries the given moment. -/
def backUp (now : Timestamp) : FileTask Path := do
  let text ← output.readText
  let backup := output.backups.child (Backup.nameAt (← output.name) now)
  FileTask.change (·.write backup text.toUTF8) fun fault =>
    .backupFailed (.unwritable backup fault)
  return backup

/-- The backups of the output, from the newest to the oldest one. -/
def listBackups : FileTask (List Path) := do
  let name ← output.name
  let names ← FileTask.look (·.names output.backups)
  return (Backup.among Timestamp.ofText? name names).map (output.backups.child ·.name)

/-- Removes files one after the other, up to the first that cannot be removed, and counts them. -/
def removeAll : List Path → FileTask Nat
  | [] => return 0
  | path :: rest => do
      FileTask.change (·.remove path) .files
      return (← removeAll rest) + 1

/-- Removes all backups but the newest ones, and counts those that were removed. -/
def prune (keep : Nat) : FileTask Nat := do
  removeAll ((← output.listBackups).drop keep)

/-- Replaces the output as a whole. -/
def replace (text : String) : FileTask Unit :=
  FileTask.change (·.replace output.path text.toUTF8) .writeFailed

/-- Brings back the text of a backup; the output that it replaces is backed up before. -/
def restore (backup : Path) (now : Timestamp) : FileTask Unit := do
  unless (← get).isPresent backup do throw (.notFound backup)
  let text ← FileTask.look (·.readText backup)
  if ← output.isPresent then
    let _ ← output.backUp now
  output.replace text

end Output

end KeyLayers
