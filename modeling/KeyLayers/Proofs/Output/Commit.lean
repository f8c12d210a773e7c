import KeyLayers.Proofs.Output.Refusal

/-!
# At most one commit

Texts and documents are committed by different calls, and between them a transaction can be
rolled back any number of times.  All of them share one mark: it is set by the commit that
replaces the output, after the output has been replaced, and no call takes it away.

`Transaction.history` is what some calls come to one after the other.  A call is decided by
the mark and the files that it finds (`Transaction.perform_commit`), and the mark says
whether an earlier call was a commit that succeeded (`Transaction.of_split`).  Together they
give the law of the whole history, `Transaction.commits_once`.
-/

namespace KeyLayers

open FileTask

namespace Output

/-- The output has been replaced by a text, and every other entry is as it was. -/
structure Replaced (output : Output) (text : String) (before after : FileSystem) : Prop where
  entry : ∃ place, before.slot? output.path = some place ∧ output.Holds place text after ∧
    (∀ other, other ≠ place → after.entryAt? other = before.entryAt? other) ∧
    ((∀ target, before.nodeAt? place ≠ some (.link target)) →
      after.slot? output.path = some place)
  /-- It is read through its path, unless something stands behind the name there or the way led
  over a link that was the output. -/
  read : output.path.segments.getLast? = output.path.name? → after.slot? output.path ≠ none →
    after.readText output.path = .ok text

theorem replaced_of_replace {output : Output} {text : String} {before after : FileSystem}
    (replaced : before.replace output.path text.toUTF8 = .ok after) :
    output.Replaced text before after := by
  rcases FileSystem.replace_eq_ok replaced with ⟨place, mark, found, other, rfl⟩
  have holds : output.Holds place text _ := holds_put found other mark
  refine ⟨⟨place, found, holds, ?_, ?_⟩, holds.readText⟩
  · exact fun elsewhere different => FileSystem.entryAt?_put_of_ne different
  · intro unlinked
    have ends : before.IsEnd place := by
      cases node : before.nodeAt? place with
      | none => exact .inl node
      | some found =>
          cases found with
          | directory => exact absurd node other
          | link target => exact absurd node (unlinked target)
          | file content => exact .inr ⟨content, node⟩
    exact (FileSystem.includes_put ends _).slot?_eq found

end Output

namespace Transaction

/-! ## Calls -/

/-- What may be called on a transaction. -/
inductive Call where
  | commit (text : String)
  | commitDocument (document : Document)
  | rollback

namespace Call

/-- A call as a task, which ends with the transaction as it is afterwards. -/
def task (transaction : Transaction) : Call → FileTask Transaction
  | commit text => transaction.commit text
  | commitDocument document => transaction.commitDocument document
  | rollback => do
      transaction.rollback
      return transaction

/-- The text that a call commits; a rollback commits none. -/
def text? : Call → Option String
  | commit text => some text
  | commitDocument document => some document.text
  | rollback => none

/-- Whether what a call commits has no errors; a text is not looked into. -/
def IsSound : Call → Prop
  | commitDocument document => document.errors = []
  | _ => True

theorem text?_eq_none_iff {call : Call} : call.text? = none ↔ call = rollback := by
  cases call <;> simp [text?]

end Call

/-- A call on a transaction, and what it comes to. -/
structure Record where
  call : Call
  /-- The transaction before the call. -/
  transaction : Transaction
  before : FileSystem
  outcome : Except OutputError Transaction
  after : FileSystem

/-- What a call on a transaction comes to. -/
def Call.record (call : Call) (transaction : Transaction) (files : FileSystem) : Record where
  call
  transaction
  before := files
  outcome := (perform (call.task transaction) files).1
  after := (perform (call.task transaction) files).2

namespace Record

/-- Whether the call is a commit that succeeds. -/
def isCommit (record : Record) : Bool :=
  record.call.text?.isSome && record.outcome.isOk

/-- The transaction after the call; a call that fails leaves it as it was. -/
def next (record : Record) : Transaction :=
  record.outcome.toOption.getD record.transaction

end Record

/-- What some calls come to one after the other, whether or not each of them succeeds. -/
def history (transaction : Transaction) (files : FileSystem) : List Call → List Record
  | [] => []
  | call :: rest =>
      let record := call.record transaction files
      record :: history record.next record.after rest

/-! ## One call -/

section

variable {transaction : Transaction} {files : FileSystem} {call : Call} {text : String}

/-- A commit looks at the mark first and then replaces the output. -/
theorem perform_commit :
    perform (transaction.commit text) files =
      if transaction.isCommitted then (.error .alreadyCommitted, files)
      else
        match files.replace transaction.output.path text.toUTF8 with
        | .ok after => (.ok { transaction with isCommitted := true }, after)
        | .error fault => (.error (.writeFailed fault), files) := by
  rw [commit]
  cases transaction.isCommitted with
  | true => rfl
  | false =>
      simp only [Bool.false_eq_true, if_false, perform_bind, Output.replace, perform_change]
      cases files.replace transaction.output.path text.toUTF8 <;> rfl

/-- Whether a call on a transaction may replace the output. -/
structure MayCommit (transaction : Transaction) (call : Call) (files : FileSystem) : Prop where
  unmarked : transaction.isCommitted = false
  sound : call.IsSound
  /-- The directory of the output is there, and the output is none itself. -/
  replaceable : ∃ place, files.slot? transaction.output.path = some place ∧
    files.nodeAt? place ≠ some .directory

end

/-- What a commit of a text comes to: it changes nothing, or it replaces the output. -/
inductive Record.Commits (text : String) : Record → Prop where
  | fails {call : Call} {transaction : Transaction} {files : FileSystem} (error : OutputError)
      (commits : call.text? = some text) (mayNot : ¬ transaction.MayCommit call files) :
      Commits text ⟨call, transaction, files, .error error, files⟩
  | succeeds {call : Call} {transaction : Transaction} {files after : FileSystem}
      (commits : call.text? = some text) (may : transaction.MayCommit call files)
      (replaced : files.replace transaction.output.path text.toUTF8 = .ok after) :
      Commits text ⟨call, transaction, files, .ok { transaction with isCommitted := true }, after⟩

section

variable {transaction : Transaction} {files : FileSystem} {call : Call} {text : String}

/-- What is committed without an error of its own is committed as a text. -/
theorem commits_of_sound (commits : call.text? = some text) (sound : call.IsSound)
    (same : call.task transaction = transaction.commit text) :
    (call.record transaction files).Commits text := by
  rw [Call.record, same, perform_commit]
  cases marked : transaction.isCommitted with
  | true =>
      refine .fails _ commits ?_
      intro may
      cases marked.symm.trans may.unmarked
  | false =>
      cases replaced : files.replace transaction.output.path text.toUTF8 with
      | error fault =>
          refine .fails _ commits ?_
          intro may
          rcases may.replaceable with ⟨place, found, other⟩
          rcases FileSystem.exists_replace found other text.toUTF8 with ⟨after, written⟩
          cases replaced.symm.trans written
      | ok after =>
          rcases FileSystem.replace_eq_ok replaced with ⟨place, -, found, other, -⟩
          exact .succeeds commits ⟨marked, sound, place, found, other⟩ replaced

theorem commits_record (commits : call.text? = some text) :
    (call.record transaction files).Commits text := by
  cases call with
  | commit text =>
      cases commits
      exact commits_of_sound rfl trivial rfl
  | commitDocument document =>
      cases commits
      cases errors : document.errors with
      | nil => exact commits_of_sound rfl errors (by rw [Call.task, commitDocument, errors])
      | cons first more =>
          rw [Call.record, Call.task, commitDocument, errors]
          refine .fails _ rfl ?_
          intro may
          cases errors.symm.trans may.sound
  | rollback => cases commits

/-- A rollback leaves the transaction as it was. -/
theorem next_rollback : (Call.rollback.record transaction files).next = transaction := by
  rw [Record.next, Call.record, Call.task, perform_bind]
  rcases perform transaction.rollback files with ⟨_ | _, after⟩ <;> rfl

end

namespace Record

variable {record : Record} {text : String}

theorem Commits.isCommit_iff (commits : record.Commits text) :
    record.isCommit = true ↔ record.transaction.MayCommit record.call record.before := by
  cases commits with
  | fails error commits mayNot => simp [isCommit, mayNot, Except.isOk, Except.toBool]
  | succeeds commits may replaced => simp [isCommit, may, commits, Except.isOk, Except.toBool]

/-- A commit that fails changes no file. -/
theorem Commits.after_eq (commits : record.Commits text) (failed : record.isCommit = false) :
    record.after = record.before := by
  cases commits with
  | fails error commits mayNot => rfl
  | succeeds commits may replaced => simp [isCommit, commits, Except.isOk, Except.toBool] at failed

theorem Commits.replaced (commits : record.Commits text) (succeeded : record.isCommit = true) :
    record.transaction.output.Replaced text record.before record.after := by
  cases commits with
  | fails error commits mayNot => simp [isCommit, Except.isOk, Except.toBool] at succeeded
  | succeeds commits may replaced => exact Output.replaced_of_replace replaced

/-- A commit sets the mark if it succeeds. -/
theorem Commits.next_eq (commits : record.Commits text) :
    record.next =
      { record.transaction with
        isCommitted := record.transaction.isCommitted || record.isCommit } := by
  cases commits with
  | fails error commits mayNot => simp [next, isCommit, Except.toOption, Except.isOk, Except.toBool]
  | succeeds commits may replaced =>
      simp [next, isCommit, commits, Except.toOption, Except.isOk, Except.toBool]

end Record

/-! ## All calls -/

section

variable {transaction : Transaction} {files : FileSystem}

/-- The mark is set by a commit that succeeds and by nothing else, and is never taken away. -/
theorem next_record (call : Call) (transaction : Transaction) (files : FileSystem) :
    (call.record transaction files).next =
      { transaction with
        isCommitted := transaction.isCommitted || (call.record transaction files).isCommit } := by
  cases commits : call.text? with
  | none =>
      cases Call.text?_eq_none_iff.1 commits
      rw [next_rollback]
      simp [Record.isCommit, Call.record, commits]
  | some text => exact (commits_record commits).next_eq

theorem isCommitted_of_isCommit {call : Call}
    (succeeded : (call.record transaction files).isCommit = true) :
    transaction.isCommitted = false := by
  cases commits : call.text? with
  | none => simp [Record.isCommit, Call.record, commits] at succeeded
  | some text => exact ((commits_record commits).isCommit_iff.1 succeeded).unmarked

theorem countP_isCommit_le (transaction : Transaction) (files : FileSystem) (calls : List Call) :
    (transaction.history files calls).countP Record.isCommit ≤
      if transaction.isCommitted then 0 else 1 := by
  induction calls generalizing transaction files with
  | nil => simp [history]
  | cons call rest ih =>
      have later := ih (call.record transaction files).next (call.record transaction files).after
      rw [next_record] at later
      rw [history, List.countP_cons, next_record]
      cases succeeded : (call.record transaction files).isCommit with
      | false => simpa [succeeded] using later
      | true =>
          have unmarked := isCommitted_of_isCommit succeeded
          simpa [succeeded, unmarked] using later

/-- The state in which a call finds the transaction and the files. -/
theorem of_split {calls : List Call} {earlier later : List Record} {record : Record}
    (split : transaction.history files calls = earlier ++ record :: later) :
    record = record.call.record
      { transaction with
        isCommitted := transaction.isCommitted || earlier.any Record.isCommit }
      ((earlier.getLast?.map Record.after).getD files) := by
  induction earlier generalizing transaction files calls with
  | nil =>
      cases calls with
      | nil => cases split
      | cons call rest =>
          rw [history, List.nil_append, List.cons.injEq] at split
          rcases split with ⟨rfl, -⟩
          simp [Call.record]
  | cons first others ih =>
      cases calls with
      | nil => cases split
      | cons call rest =>
          rw [history, List.cons_append, List.cons.injEq] at split
          rcases split with ⟨rfl, split⟩
          have found := ih split
          rw [next_record] at found
          simpa [Bool.or_assoc, List.getLast?_cons] using found

end

/-- What is said of a call on a transaction by the calls before it. -/
structure Record.Lawful (transaction : Transaction) (earlier : List Record) (record : Record) :
    Prop where
  /-- The first commit succeeds whose text may be written and for which there is room. -/
  isCommit_iff : record.call ≠ .rollback →
    (record.isCommit = true ↔ transaction.isCommitted = false ∧
      (∀ other ∈ earlier, other.isCommit = false) ∧ record.call.IsSound ∧
        ∃ place, record.before.slot? transaction.output.path = some place ∧
          record.before.nodeAt? place ≠ some .directory)
  replaced : record.isCommit = true →
    ∃ text, record.call.text? = some text ∧
      transaction.output.Replaced text record.before record.after
  failed : record.call ≠ .rollback → ∀ error, record.outcome = .error error →
    record.after = record.before
  changed : record.after ≠ record.before → record.isCommit = true ∨ record.call = .rollback

theorem Record.Lawful.after_eq {transaction : Transaction} {earlier : List Record}
    {record : Record} (lawful : record.Lawful transaction earlier)
    (call : record.call ≠ .rollback) (failed : record.isCommit = false) :
    record.after = record.before := by
  by_contra changed
  rcases lawful.changed changed with succeeded | rollback
  · cases failed.symm.trans succeeded
  · exact call rollback

theorem lawful_of_split {transaction : Transaction} {files : FileSystem} {calls : List Call}
    {earlier later : List Record} {record : Record}
    (split : transaction.history files calls = earlier ++ record :: later) :
    record.Lawful transaction earlier := by
  have state := of_split split
  have commits (call : record.call ≠ .rollback) : ∃ text, record.call.text? = some text ∧
      record.Commits text := by
    rcases Option.ne_none_iff_exists'.1 (mt Call.text?_eq_none_iff.1 call) with ⟨text, commits⟩
    refine ⟨text, commits, ?_⟩
    rw [state]
    exact commits_record commits
  have transaction_eq : record.transaction =
      { transaction with
        isCommitted := transaction.isCommitted || earlier.any Record.isCommit } :=
    congrArg Record.transaction state
  have output_eq : record.transaction.output = transaction.output := by
    rw [transaction_eq]
  have isCall (succeeded : record.isCommit = true) : record.call ≠ .rollback := by
    intro same
    rw [Record.isCommit, same] at succeeded
    cases succeeded
  constructor
  case isCommit_iff =>
    intro call
    rcases commits call with ⟨text, -, commits⟩
    rw [commits.isCommit_iff, ← output_eq]
    have unmarked : record.transaction.isCommitted = false ↔
        transaction.isCommitted = false ∧ ∀ other ∈ earlier, other.isCommit = false := by
      rw [transaction_eq]
      simp
    constructor
    · rintro ⟨unset, sound, replaceable⟩
      rcases unmarked.1 unset with ⟨first, before⟩
      exact ⟨first, before, sound, replaceable⟩
    · rintro ⟨first, before, sound, replaceable⟩
      exact ⟨unmarked.2 ⟨first, before⟩, sound, replaceable⟩
  case replaced =>
    intro succeeded
    rcases commits (isCall succeeded) with ⟨text, commits, outcome⟩
    exact ⟨text, commits, output_eq ▸ outcome.replaced succeeded⟩
  case failed =>
    intro call error outcome
    rcases commits call with ⟨text, -, commits⟩
    apply commits.after_eq
    simp [Record.isCommit, outcome, Except.isOk, Except.toBool]
  case changed =>
    intro differs
    by_contra neither
    rw [not_or, Bool.not_eq_true] at neither
    rcases commits neither.2 with ⟨text, -, commits⟩
    exact differs (commits.after_eq neither.1)

/--
Of all calls on a transaction at most one is a commit that succeeds.  That one replaces the
output by its text and changes nothing else; any other commit leaves all files as they were, so
that beside it only a rollback changes any.
-/
theorem commits_once (transaction : Transaction) (files : FileSystem) (calls : List Call) :
    (transaction.history files calls).map Record.call = calls ∧
    (transaction.history files calls).countP Record.isCommit ≤ 1 ∧
    ∀ earlier record later,
      transaction.history files calls = earlier ++ record :: later →
        record.before = (earlier.getLast?.map Record.after).getD files ∧
          record.Lawful transaction earlier := by
  refine ⟨?_, ?_, ?_⟩
  · induction calls generalizing transaction files with
    | nil => rfl
    | cons call rest ih => rw [history, List.map_cons, ih, Call.record]
  · refine (countP_isCommit_le transaction files calls).trans ?_
    split <;> simp
  · intro earlier record later split
    exact ⟨congrArg Record.before (of_split split), lawful_of_split split⟩

end Transaction

/-! ## A transaction that is called more than once -/

namespace Sample

def begunCalls : List Transaction.Call :=
  [.commitDocument stuckDocument, .commit "new", .rollback, .commitDocument emptyDocument]

theorem slot_backedUp : backedUp.slot? archived.path = some ["out.json"] := by
  have vacant : archive.nodeAt? ["backups", backupName] = none := by
    rw [FileSystem.nodeAt?, entryAt?_backup_archive, Option.map_none]
  exact (FileSystem.includes_put (.inl vacant) _).slot?_eq (slot?_archived rfl)

theorem nodeAt?_backedUp : backedUp.nodeAt? ["out.json"] = some (.file "old".toUTF8) := by
  rw [backedUp, FileSystem.nodeAt?_put_of_ne (by simp)]
  rfl

/-- The first document has an error, and the second one comes after a commit. -/
theorem begun_commits_once :
    ∃ refused replaced rolled repeated,
      begun.history backedUp begunCalls = [refused, replaced, rolled, repeated] ∧
        refused.after = backedUp ∧ replaced.isCommit = true ∧
        archived.Replaced "new" backedUp replaced.after ∧
        repeated.isCommit = false ∧ repeated.after = rolled.after := by
  have law := (Transaction.commits_once begun backedUp begunCalls).2.2
  obtain ⟨refused, replaced, rolled, repeated, all⟩ : ∃ refused replaced rolled repeated,
      begun.history backedUp begunCalls = [refused, replaced, rolled, repeated] :=
    ⟨_, _, _, _, rfl⟩
  have calls := (Transaction.commits_once begun backedUp begunCalls).1
  rw [all] at calls
  simp only [begunCalls, List.map_cons, List.cons.injEq] at calls
  rcases calls with ⟨firstCall, secondCall, -, fourthCall, -⟩
  obtain ⟨firstBefore, first⟩ := law [] refused [replaced, rolled, repeated] all
  obtain ⟨secondBefore, second⟩ := law [refused] replaced [rolled, repeated] all
  obtain ⟨fourthBefore, fourth⟩ := law [refused, replaced, rolled] repeated [] all
  have unsound : refused.isCommit = false := by
    rw [← Bool.not_eq_true, first.isCommit_iff (by simp [firstCall]), firstCall]
    exact fun may => stuck_faulty may.2.2.1
  have untouched : refused.after = backedUp :=
    (first.after_eq (by simp [firstCall]) unsound).trans firstBefore
  have before : replaced.before = backedUp := secondBefore.trans untouched
  have succeeded : replaced.isCommit = true := by
    rw [second.isCommit_iff (by simp [secondCall]), secondCall, before]
    exact ⟨rfl, by simpa using unsound, trivial, ["out.json"], slot_backedUp,
      by simp [nodeAt?_backedUp]⟩
  have again : repeated.isCommit = false := by
    rw [← Bool.not_eq_true, fourth.isCommit_iff (by simp [fourthCall])]
    intro may
    cases succeeded.symm.trans (may.2.1 replaced (by simp))
  refine ⟨refused, replaced, rolled, repeated, all, untouched, succeeded, ?_, again, ?_⟩
  · rcases second.replaced succeeded with ⟨text, commits, changed⟩
    rw [secondCall] at commits
    cases commits
    exact before ▸ changed
  · exact (fourth.after_eq (by simp [fourthCall]) again).trans fourthBefore

end Sample

end KeyLayers
