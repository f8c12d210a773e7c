import KeyLayers.Output.Build
import KeyLayers.Proofs.FileSystem.Change

/-!
# Taking tasks apart

What a task ends with and the files that it leaves, for the tasks that all work
on the output consists of.
-/

namespace KeyLayers

namespace FileTask

section

variable {α β : Type} {files after : FileSystem}

/-- A sequence stops at its first error, or goes on with what the first task leaves. -/
theorem perform_bind_eq_iff {task : FileTask α} {next : α → FileTask β}
    {outcome : Except OutputError β} :
    perform (task >>= next) files = (outcome, after) ↔
      (∃ error, perform task files = (.error error, after) ∧ outcome = .error error) ∨
        ∃ value middle, perform task files = (.ok value, middle) ∧
          perform (next value) middle = (outcome, after) := by
  rw [perform_bind]
  rcases perform task files with ⟨first, middle⟩
  cases first with
  | error error => simp [and_comm, eq_comm]
  | ok value => simp

/-- A sequence succeeds if both of its tasks do. -/
theorem perform_bind_eq_ok_iff {task : FileTask α} {next : α → FileTask β} {result : β} :
    perform (task >>= next) files = (.ok result, after) ↔
      ∃ value middle, perform task files = (.ok value, middle) ∧
        perform (next value) middle = (.ok result, after) := by
  simp [perform_bind_eq_iff]

theorem perform_change_eq_ok_iff {edit : FileSystem → Except FileSystem.Fault FileSystem}
    {report : FileSystem.Fault → OutputError} :
    perform (change edit report) files = (.ok (), after) ↔ edit files = .ok after := by
  rw [perform_change]
  cases edit files <;> simp

theorem perform_ofExcept (value : Except OutputError α) :
    perform (ofExcept value) files = (value, files) := by
  cases value <;> rfl

/-! ## What tasks keep -/

/-- Whatever the outcome, the task leaves files for which the statement still holds. -/
def Keeps (holds : FileSystem → Prop) (task : FileTask α) : Prop :=
  ∀ files, holds files → holds (perform task files).2

variable {holds : FileSystem → Prop}

theorem Keeps.pure (value : α) : Keeps holds (Pure.pure value : FileTask α) :=
  fun _ held => held

theorem Keeps.throw (error : OutputError) : Keeps holds (throw error : FileTask α) :=
  fun _ held => held

theorem Keeps.get : Keeps holds (get : FileTask FileSystem) :=
  fun _ held => held

theorem Keeps.look (see : FileSystem → Except FileSystem.Fault α) : Keeps holds (look see) := by
  intro files held
  rw [perform_look]
  exact held

theorem Keeps.ofExcept (value : Except OutputError α) : Keeps holds (ofExcept value) := by
  intro files held
  rw [perform_ofExcept]
  exact held

theorem Keeps.change {edit : FileSystem → Except FileSystem.Fault FileSystem}
    {describe : FileSystem.Fault → OutputError}
    (kept : ∀ files after, holds files → edit files = .ok after → holds after) :
    Keeps holds (change edit describe) := by
  intro files held
  rw [perform_change]
  cases edited : edit files with
  | error fault => exact held
  | ok after => exact kept files after held edited

theorem Keeps.bind {task : FileTask α} {next : α → FileTask β} (first : Keeps holds task)
    (rest : ∀ value, Keeps holds (next value)) : Keeps holds (task >>= next) := by
  intro files held
  have between := first files held
  rw [perform_bind]
  rcases performed : perform task files with ⟨outcome, middle⟩
  rw [performed] at between
  cases outcome with
  | error error => exact between
  | ok value => exact rest value middle between

end

end FileTask

namespace Output

open FileTask

variable {output : Output} {files after : FileSystem}

/-! ## Tasks on the output -/

theorem perform_isPresent :
    perform output.isPresent files = (.ok (files.isPresent output.path), files) := rfl

theorem perform_readText :
    perform output.readText files =
      (if files.isPresent output.path then (files.readText output.path).mapError .files
        else .error (.notFound output.path), files) := by
  rw [readText, perform_bind, perform_isPresent]
  cases files.isPresent output.path with
  | false => rfl
  | true =>
      simp only [if_true]
      exact perform_look ..

theorem perform_readText_eq_ok {text : String}
    (read : perform output.readText files = (.ok text, after)) :
    after = files ∧ files.readText output.path = .ok text := by
  rw [perform_readText, Prod.mk.injEq] at read
  rcases read with ⟨read, rfl⟩
  split at read
  · rw [mapError_eq_ok_iff] at read
    exact ⟨rfl, read⟩
  · cases read

theorem perform_name :
    perform output.name files =
      (match output.path.name? with
        | some name => .ok name
        | none => .error (.backupFailed (.nameless output.path)), files) := by
  rw [name]
  cases output.path.name? <;> rfl

theorem keeps_name (holds : FileSystem → Prop) : Keeps holds output.name := by
  intro files held
  rw [perform_name]
  exact held

/-- A backup is a copy of the output, under a name of its own; without one nothing changes. -/
theorem perform_backUp {now : Timestamp} {outcome : Except OutputError Path}
    (performed : perform (output.backUp now) files = (outcome, after)) :
    (∃ error, outcome = .error error) ∧ after = files ∨
      ∃ text name, output.path.name? = some name ∧ files.readText output.path = .ok text ∧
        files.write (output.backups.child (Backup.nameAt name now)) text.toUTF8 = .ok after ∧
          outcome = .ok (output.backups.child (Backup.nameAt name now)) := by
  rw [backUp, perform_bind_eq_iff] at performed
  rcases performed with ⟨error, failed, same⟩ | ⟨text, middle, read, performed⟩
  · rw [perform_readText, Prod.mk.injEq] at failed
    exact Or.inl ⟨⟨error, same⟩, failed.2.symm⟩
  · rcases perform_readText_eq_ok read with ⟨same, text_eq⟩
    rw [same, perform_bind, perform_name] at performed
    cases named : output.path.name? with
    | none =>
        simp only [named, Prod.mk.injEq] at performed
        exact Or.inl ⟨⟨_, performed.1.symm⟩, performed.2.symm⟩
    | some name =>
        simp only [named, perform_bind, perform_change] at performed
        cases written : files.write (output.backups.child (Backup.nameAt name now))
            text.toUTF8 with
        | error fault =>
            simp only [written, Prod.mk.injEq] at performed
            exact Or.inl ⟨⟨_, performed.1.symm⟩, performed.2.symm⟩
        | ok copied =>
            simp only [written, perform_pure, Prod.mk.injEq] at performed
            rcases performed with ⟨same, rfl⟩
            exact Or.inr ⟨text, name, rfl, text_eq, written, same.symm⟩

/-- A backup is taken where the output is a text and the backup can be written. -/
theorem perform_backUp_eq {now : Timestamp} {text name : String}
    (named : output.path.name? = some name) (read : files.readText output.path = .ok text)
    (written : files.write (output.backups.child (Backup.nameAt name now)) text.toUTF8 =
      .ok after) :
    perform (output.backUp now) files =
      (.ok (output.backups.child (Backup.nameAt name now)), after) := by
  have present := FileSystem.isPresent_of_readContent (FileSystem.readText_eq_ok_iff.1 read)
  simp only [backUp, perform_bind, perform_readText, present, if_true, read, Except.mapError,
    perform_name, named, perform_change, written, perform_pure]

end Output

end KeyLayers
