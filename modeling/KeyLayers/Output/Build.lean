import KeyLayers.Output.Transaction
import KeyLayers.Spec.Build

/-!
# Building the output

A build reads a spec file, compiles it, writes the document to the output in one
transaction, and removes old backups.  Nothing is written unless the document
has been compiled and has no errors.
-/

namespace KeyLayers

/-- What is to be built. -/
structure BuildRequest where
  spec : Path
  /-- The output that is named explicitly, which wins over that of the spec file. -/
  output : Option String := none
  takesBackup : Bool := true

/-- What a build did. -/
structure BuildSummary where
  output : Path
  backup? : Option Path
  profiles : Nat
  rules : Nat
  removedBackups : Nat

/-- Reads the spec file at a path. -/
def Spec.load (path : Path) : FileTask Spec := do
  unless (← get).isPresent path do throw (.notFound path)
  let text ← FileTask.look (·.readText path)
  FileTask.ofExcept ((Spec.ofText text).mapError fun error => .spec (.unreadable error))

/-- The document of a spec file. -/
def Spec.compiled (spec : Spec) : FileTask Document :=
  FileTask.ofExcept (spec.document.mapError .spec)

namespace BuildRequest

/-- Begins the transaction of a build. -/
def transaction (request : BuildRequest) (output : Output) (now : Timestamp) :
    FileTask Transaction :=
  if request.takesBackup then Transaction.start output now
  else Transaction.startWithoutBackup output

/-- Builds the output. -/
def run (request : BuildRequest) (environment : Environment) (now : Timestamp) :
    FileTask BuildSummary := do
  let spec ← Spec.load request.spec
  let document ← spec.compiled
  let output ← Output.prepare (.ofText (spec.outputPath environment request.output))
  let transaction ← request.transaction output now
  let _ ← transaction.commitDocument document
  let removedBackups ← output.prune spec.keepBackups
  return {
    output := output.path
    backup? := transaction.backup?
    profiles := document.profiles.length
    rules := document.rules.length
    removedBackups }

end BuildRequest

end KeyLayers
