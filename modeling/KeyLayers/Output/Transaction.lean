import KeyLayers.Document.Report
import KeyLayers.Output

/-!
# Transactions

A transaction begins with a backup of the output, commits at most one new text,
and can be rolled back to what was there at its beginning: the backup, or no
output at all.  A document with errors is not committed.
-/

namespace KeyLayers

/-- A change of the output that can be undone. -/
structure Transaction where
  output : Output
  /-- The backup that was taken at the beginning. -/
  backup? : Option Path
  /-- Whether the output was there at the beginning. -/
  existed : Bool
  isCommitted : Bool := false
deriving DecidableEq

namespace Transaction

/-- Begins with a backup of the output, if there is something to back up. -/
def start (output : Output) (now : Timestamp) : FileTask Transaction := do
  if ← output.isPresent then
    return { output, backup? := some (← output.backUp now), existed := true }
  else
    return { output, backup? := none, existed := false }

/-- Begins without a backup. -/
def startWithoutBackup (output : Output) : FileTask Transaction :=
  return { output, backup? := none, existed := ← output.isPresent }

variable (transaction : Transaction)

/-- Replaces the output by a text, which can be done only once. -/
def commit (text : String) : FileTask Transaction := do
  if transaction.isCommitted then throw .alreadyCommitted
  transaction.output.replace text
  return { transaction with isCommitted := true }

/-- Commits the text of a document that has no errors. -/
def commitDocument (document : Document) : FileTask Transaction :=
  match document.errors with
  | [] => transaction.commit document.text
  | errors => throw (.refused errors.length)

/-- Brings back what was there at the beginning. -/
def rollback : FileTask Unit := do
  match transaction.backup? with
  | some backup => transaction.output.replace (← FileTask.look (·.readText backup))
  | none =>
      if transaction.existed then throw (.backupFailed .notTaken)
      if ← transaction.output.isPresent then
        FileTask.change (·.remove transaction.output.path) .files

end Transaction

end KeyLayers
