import KeyLayers.Proofs.Output.Publication

/-!
# Builds that succeed

A build that succeeds has gone through all of its stages: the spec file is read
and compiled, the output is opened, the transaction begins, the document is
committed, and old backups are removed.  `BuildRequest.Stages` names the files
between two stages, so that each can be looked at on its own.
-/

namespace KeyLayers

open FileTask

namespace BuildRequest

/-- The stages of a build that succeeds, with the files between them. -/
structure Stages (request : BuildRequest) (environment : Environment) (now : Timestamp)
    (before after : FileSystem) (summary : BuildSummary) where
  spec : Spec
  document : Document
  transaction : Transaction
  committed : Transaction
  /-- Once the directory of the backups is there. -/
  opened : FileSystem
  /-- Once the backup is taken. -/
  started : FileSystem
  /-- Once the document is written. -/
  written : FileSystem
  loaded : perform (Spec.load request.spec) before = (.ok spec, before)
  compiled : spec.document = .ok document
  opens : perform (Output.prepare (request.target environment spec).path) before =
    (.ok (request.target environment spec), opened)
  starts : perform (request.transaction (request.target environment spec) now) opened =
    (.ok transaction, started)
  commits : perform (transaction.commitDocument document) started = (.ok committed, written)
  prunes : perform ((request.target environment spec).prune spec.keepBackups) written =
    (.ok summary.removedBackups, after)
  output_eq : summary.output = (request.target environment spec).path
  backup_eq : summary.backup? = transaction.backup?

variable {request : BuildRequest} {environment : Environment} {now : Timestamp}
  {before after : FileSystem} {summary : BuildSummary}

theorem exists_stages
    (performed : perform (request.run environment now) before = (.ok summary, after)) :
    Nonempty (request.Stages environment now before after summary) := by
  rcases perform_bind_eq_ok_iff.1 performed with ⟨spec, loaded, load, performed⟩
  have kept := perform_load request.spec before
  rw [load] at kept
  change loaded = before at kept
  rw [kept] at load performed
  rw [Spec.compiled, perform_bind, perform_ofExcept] at performed
  cases compiled : spec.document with
  | error error =>
      simp only [compiled, Except.mapError, Prod.mk.injEq] at performed
      cases performed.1
  | ok document =>
      simp only [compiled, Except.mapError] at performed
      rcases perform_bind_eq_ok_iff.1 performed with ⟨output, opened, prepare, performed⟩
      cases (Output.perform_prepare _ before).2 output (congrArg Prod.fst prepare)
      rcases perform_bind_eq_ok_iff.1 performed with ⟨transaction, started, start, performed⟩
      rcases perform_bind_eq_ok_iff.1 performed with ⟨committed, written, commit, performed⟩
      rcases perform_bind_eq_ok_iff.1 performed with ⟨count, left, prune, performed⟩
      cases performed
      exact ⟨{
        spec, document, transaction, committed, opened, started, written
        loaded := load
        compiled := compiled
        opens := prepare
        starts := start
        commits := commit
        prunes := prune
        output_eq := rfl
        backup_eq := rfl }⟩

namespace Stages

variable (stages : request.Stages environment now before after summary)

/-- The transaction is about the output of the build. -/
theorem output_of_transaction :
    stages.transaction.output = request.target environment stages.spec :=
  (perform_transaction request _ now stages.opened).2 _ (congrArg Prod.fst stages.starts)

/-- The commit replaces the output by the document, which has no errors. -/
theorem exists_put :
    stages.document.errors = [] ∧
      ∃ place mark,
        stages.started.slot? (request.target environment stages.spec).path = some place ∧
          stages.started.nodeAt? place ≠ some .directory ∧
            stages.written = stages.started.put place
              { node := .file stages.document.text.toUTF8, isReadOnly := mark } := by
  rcases Transaction.perform_commitDocument_cases stages.commits with
    ⟨⟨error, impossible⟩, -⟩ | ⟨sound, -, replaced⟩
  · cases impossible
  · rw [stages.output_of_transaction] at replaced
    exact ⟨sound, Output.perform_replace_eq_ok replaced⟩

/-- The document is written to where the output was once it had been opened, and stays there. -/
theorem exists_holds :
    stages.document.errors = [] ∧
      ∃ place, stages.opened.slot? (request.target environment stages.spec).path = some place ∧
        stages.started.slot? (request.target environment stages.spec).path = some place ∧
        (request.target environment stages.spec).Holds place stages.document.text
          stages.written ∧
        (request.target environment stages.spec).Holds place stages.document.text after := by
  have included : stages.opened.Includes stages.started := by
    have begun := (perform_transaction request (request.target environment stages.spec) now
      stages.opened).1
    rw [stages.starts] at begun
    change stages.started = _ ∨ stages.started = _ at begun
    rcases begun with same | copied
    · rw [same]
      exact .refl stages.opened
    · rw [copied]
      exact Output.includes_of_backUp _ now stages.opened
  rcases stages.exists_put with ⟨sound, place, mark, found, other, same⟩
  have holds : (request.target environment stages.spec).Holds place stages.document.text
      stages.written := by
    rw [same]
    exact Output.holds_put found other mark
  have kept := Output.keeps_holds_prune (FileSystem.getLast?_of_slot? found)
    stages.spec.keepBackups stages.written holds
  rw [stages.prunes] at kept
  exact ⟨sound, place, included.slot?_eq found, found, holds, kept⟩

end Stages

end BuildRequest

end KeyLayers
