import KeyLayers.Output.Error

/-!
# Tasks on files

A task works on a file system and may fail.  A failure does not undo what was
done before it, so a task ends with the files that it leaves in either case.
-/

namespace KeyLayers

/-- A task that works on a file system and may fail. -/
abbrev FileTask (α : Type) := ExceptT OutputError (StateM FileSystem) α

namespace FileTask

variable {α : Type}

/-- What a task ends with, and the files that it leaves. -/
def perform (task : FileTask α) (files : FileSystem) : Except OutputError α × FileSystem :=
  (ExceptT.run task).run files

/-- Looks at the files. -/
def look (see : FileSystem → Except FileSystem.Fault α) : FileTask α := do
  match see (← get) with
  | .ok value => return value
  | .error fault => throw (.files fault)

/-- Changes the files, or fails and leaves them as they are. -/
def change (edit : FileSystem → Except FileSystem.Fault FileSystem)
    (describe : FileSystem.Fault → OutputError) : FileTask Unit := do
  match edit (← get) with
  | .ok files => set files
  | .error fault => throw (describe fault)

/-- Fails unless a value is there. -/
def ofExcept : Except OutputError α → FileTask α
  | .ok value => return value
  | .error error => throw error

theorem perform_pure (value : α) (files : FileSystem) :
    perform (pure value) files = (.ok value, files) := rfl

theorem perform_throw (error : OutputError) (files : FileSystem) :
    perform (throw error : FileTask α) files = (.error error, files) := rfl

theorem perform_get (files : FileSystem) :
    perform (get : FileTask FileSystem) files = (.ok files, files) := rfl

theorem perform_set (files after : FileSystem) :
    perform (set after : FileTask Unit) files = (.ok (), after) := rfl

theorem perform_bind {β : Type} (task : FileTask α) (next : α → FileTask β)
    (files : FileSystem) :
    perform (task >>= next) files =
      match perform task files with
      | (.ok value, files) => perform (next value) files
      | (.error error, files) => (.error error, files) := by
  simp only [perform, ExceptT.run_bind]
  simp only [StateT.run_bind]
  change (match (ExceptT.run task).run files with | (a, s) => _) = _
  rcases (ExceptT.run task).run files with ⟨_ | _, _⟩ <;> rfl

theorem perform_look (see : FileSystem → Except FileSystem.Fault α) (files : FileSystem) :
    perform (look see) files = ((see files).mapError .files, files) := by
  simp only [look, perform_bind, perform_get]
  cases see files <;> rfl

theorem perform_change (edit : FileSystem → Except FileSystem.Fault FileSystem)
    (describe : FileSystem.Fault → OutputError) (files : FileSystem) :
    perform (change edit describe) files =
      match edit files with
      | .ok after => (.ok (), after)
      | .error fault => (.error (describe fault), files) := by
  simp only [change, perform_bind, perform_get]
  cases edit files <;> rfl

end FileTask

end KeyLayers
