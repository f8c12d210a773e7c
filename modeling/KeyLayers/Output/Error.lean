import KeyLayers.FileSystem
import KeyLayers.Spec.Error

/-!
# Errors around the output

The output can be missing or hard to write; its backups can fail; the document
can have errors of its own; and there are the errors of the spec file.

An error may have a cause, which may have a cause itself.  `OutputError.causes`
lists what lies behind an error, the nearest cause first.
-/

namespace KeyLayers

/-- Why there is no backup. -/
inductive BackupFault where
  /-- The path of the output does not end in a name. -/
  | nameless (output : Path)
  | unwritable (backup : Path) (fault : FileSystem.Fault)
  /-- The output was there at first, and no backup was taken of it. -/
  | notTaken
deriving DecidableEq

/-- Why the output could not be written, read, or brought back. -/
inductive OutputError where
  | notFound (path : Path)
  | backupsNotWritable (directory : Path)
  | alreadyCommitted
  | backupFailed (fault : BackupFault)
  | writeFailed (fault : FileSystem.Fault)
  /-- The document has that many errors. -/
  | refused (count : Nat)
  | spec (error : SpecError)
  /-- The output is no document. -/
  | unreadable (error : ReadError)
  | files (fault : FileSystem.Fault)
deriving DecidableEq

/-- The fault in words. -/
def BackupFault.message : BackupFault → String
  | nameless output => s!"Output path has no UTF-8 file name: {output.text}"
  | unwritable backup fault => s!"{backup.text}: {fault.message}"
  | notTaken => "No backup available for rollback"

namespace OutputError

/-- What a user reads about an error. -/
def message : OutputError → String
  | notFound path => s!"File not found: {path.text}"
  | backupsNotWritable directory => s!"Backup directory not writable: {directory.text}"
  | alreadyCommitted => "Transaction already committed"
  | backupFailed fault => s!"Failed to create backup: {fault.message}"
  | writeFailed fault => s!"Atomic write failed: {fault.message}"
  | refused count => s!"Validation failed: {count} validation error(s) detected"
  | spec (.unreadable _) => "Invalid spec file: TOML parse error"
  | spec error => error.message
  | unreadable _ => "JSON error"
  | files fault => s!"IO error: {fault.message}"

/-- The messages of the causes of an error, the nearest cause first. -/
def causes : OutputError → List String
  | spec (.unreadable _) => ["TOML parse error"]
  | spec (.invalidLeaf _ error) => [error.message]
  | spec (.compile error) => (error.defect?.map Defect.message).toList
  | unreadable _ => ["JSON error"]
  | files fault => [fault.message]
  | _ => []

end OutputError

end KeyLayers
