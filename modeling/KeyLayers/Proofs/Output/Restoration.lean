import KeyLayers.Proofs.Output.Publication
import KeyLayers.Proofs.Output.Rollback

/-!
# Undoing a restore

A restore reads the backup, copies the output to a new backup and replaces the output.
It stops at the first of these that fails; until the output is replaced, nothing about it
has changed.  If the output was there, the new backup is one more in the list, and bringing
that one back undoes the restore.

Whether the output is there is asked of its path, while it is replaced under its last name.
Both are the same file unless something stands behind the name in the path
(`Output.isPresent_of_node?`).
-/

namespace KeyLayers

open FileTask

namespace Output

section

variable {output : Output} {files saved after : FileSystem} {backup : Path} {now : Timestamp}
  {place directory : Place} {name text old : String}

/-! ## The steps of a restore -/

/-- A restore fails before anything is written, or replaces the output after its backup. -/
theorem perform_restore {outcome : Except OutputError Unit}
    (performed : perform (output.restore backup now) files = (outcome, after)) :
    (files.isPresent backup = false ∧ outcome = .error (.notFound backup) ∧ after = files) ∨
    files.isPresent backup = true ∧
      ((∃ error, outcome = .error error ∧ after = files) ∨
        ∃ text saved, files.readText backup = .ok text ∧
          (files.isPresent output.path = false ∧ saved = files ∨
            ∃ copy, perform (output.backUp now) files = (.ok copy, saved)) ∧
          perform (output.replace text) saved = (outcome, after)) := by
  rw [restore, perform_bind, perform_get] at performed
  simp only at performed
  cases present : files.isPresent backup with
  | false =>
      simp only [present] at performed
      cases performed
      exact Or.inl ⟨rfl, rfl, rfl⟩
  | true =>
      simp only [present, if_true, perform_bind, perform_look, perform_isPresent] at performed
      refine Or.inr ⟨rfl, ?_⟩
      cases read : files.readText backup with
      | error fault =>
          simp only [read] at performed
          cases performed
          exact Or.inl ⟨_, rfl, rfl⟩
      | ok text =>
          simp only [read, Except.mapError] at performed
          split at performed
          case isTrue there =>
            rcases perform_bind_eq_iff.1 performed with
              ⟨error, failed, rfl⟩ | ⟨copy, saved, copied, performed⟩
            · rcases perform_backUp failed with ⟨-, same⟩ | ⟨_, _, -, -, -, impossible⟩
              · exact Or.inl ⟨error, rfl, same⟩
              · cases impossible
            · exact Or.inr ⟨text, saved, rfl, Or.inr ⟨copy, copied⟩, performed⟩
          case isFalse absent =>
            exact Or.inr ⟨text, files, rfl, Or.inl ⟨Bool.eq_false_iff.2 absent, rfl⟩, performed⟩

/-- A restore that fails leaves the output as it was. -/
theorem untouched_of_restore {error : OutputError}
    (performed : perform (output.restore backup now) files = (.error error, after)) :
    output.Untouched files after := by
  rcases perform_restore performed with
    ⟨-, -, rfl⟩ | ⟨-, ⟨-, -, rfl⟩ | ⟨text, saved, -, copied, replaced⟩⟩
  · exact .refl output _
  · exact .refl output _
  · rw [perform_replace_eq_error replaced]
    rcases copied with ⟨-, rfl⟩ | ⟨copy, copied⟩
    · exact .refl output _
    · have untouched := (Untouched.refl output files).backUp now
      rwa [copied] at untouched

theorem evolved_of_backUp (output : Output) (now : Timestamp) (files : FileSystem) :
    Evolved files (perform (output.backUp now) files).2 :=
  (keptBy_evolved output files).backUp trivial files (.refl files)

/-- A restore that succeeds has put the text of the backup in place of the output. -/
theorem perform_restore_eq_ok
    (performed : perform (output.restore backup now) files = (.ok (), after)) :
    ∃ text saved, files.readText backup = .ok text ∧
      (files.isPresent output.path = false ∧ saved = files ∨
        ∃ copy, perform (output.backUp now) files = (.ok copy, saved)) ∧
      Evolved files saved ∧ saved.replace output.path text.toUTF8 = .ok after := by
  rcases perform_restore performed with
    ⟨-, impossible, -⟩ | ⟨-, ⟨_, impossible, -⟩ | ⟨text, saved, read, copied, replaced⟩⟩
  · cases impossible
  · cases impossible
  · rw [replace, perform_change_eq_ok_iff] at replaced
    refine ⟨text, saved, read, copied, ?_, replaced⟩
    rcases copied with ⟨-, rfl⟩ | ⟨copy, copied⟩
    · exact .refl saved
    · have evolved := evolved_of_backUp output now files
      rwa [copied] at evolved

/-! ## The backup that is taken -/

/-- A backup of an unused moment is the only new entry. -/
theorem exists_put_of_backUp {copy : Path} (grounded : files.Grounded files.workingPlace)
    (unused : output.IsUnused files now)
    (copied : perform (output.backUp now) files = (.ok copy, saved)) :
    ∃ (archive : output.Archive files) (old : String) (mark : Bool),
      files.readText output.path = .ok old ∧
      copy = output.backups.child (Backup.nameAt archive.name now) ∧
      files.nodeAt? (archive.directory ++ [Backup.nameAt archive.name now]) = none ∧
      saved = files.put (archive.directory ++ [Backup.nameAt archive.name now])
        { node := .file old.toUTF8, isReadOnly := mark } := by
  rcases perform_backUp copied with ⟨⟨_, impossible⟩, -⟩ | ⟨old, name, named, read, written, same⟩
  · cases impossible
  · cases same
    rcases FileSystem.write_eq_ok written with ⟨place, mark, reached, ends, -, rfl⟩
    rcases exists_of_locate_backup (Evolved.refl files) grounded (isName_nameAt named now) reached
      with ⟨directory, left, located, isDirectory, -⟩
    rcases place_of_backup (Evolved.refl files) grounded named unused.unlinked reached with
      ⟨again, relocated, rfl⟩
    cases located.symm.trans relocated
    exact ⟨⟨name, directory, named, located, isDirectory⟩, old, mark, read, rfl,
      unused.nodeAt?_eq named located isDirectory, rfl⟩

/-- One more backup is listed once there is one more, whatever becomes of the output. -/
theorem Archive.perm_listed (archive : output.Archive files) (valid : now.isValid = true)
    (free : files.nodeAt? (archive.directory ++ [Backup.nameAt archive.name now]) = none)
    (nodes : ∀ name, name ≠ archive.name →
      (after.nodeAt? (archive.directory ++ [name]) ≠ none ↔
        name = Backup.nameAt archive.name now ∨
          files.nodeAt? (archive.directory ++ [name]) ≠ none)) :
    (listed archive.name after archive.directory).Perm
      (⟨now, Backup.nameAt archive.name now⟩ :: archive.backups) := by
  have own := Backup.ofName?_nameAt archive.name valid
  have fresh : ⟨now, Backup.nameAt archive.name now⟩ ∉ archive.backups :=
    fun member => (mem_listed.1 member).2 free
  rw [List.perm_ext_iff_of_nodup (nodup_listed _ _ _)
    (List.nodup_cons.2 ⟨fresh, nodup_listed _ _ _⟩)]
  intro backup
  rw [List.mem_cons, mem_listed]
  constructor
  · rintro ⟨found, there⟩
    rcases (nodes _ (Backup.name_ne_of_ofName? found)).1 there with new | before
    · rw [new, own, Option.some.injEq] at found
      exact Or.inl found.symm
    · exact Or.inr (mem_listed.2 ⟨found, before⟩)
  · rintro (rfl | member)
    · exact ⟨own, (nodes _ (Backup.nameAt_ne archive.name now)).2 (Or.inl rfl)⟩
    · rcases mem_listed.1 member with ⟨found, before⟩
      exact ⟨found, (nodes _ (name_ne member)).2 (Or.inr before)⟩

end

/-! ## What a restore does -/

/-- The output has been replaced by the text of a backup, and all else is there. -/
structure Restored (output : Output) (files after : FileSystem) (backup : Path) (text : String)
    (place : Place) : Prop where
  source : files.readText backup = .ok text
  slot : files.slot? output.path = some place
  holds : output.Holds place text after
  read : output.path.segments.getLast? = output.path.name? →
    after.slot? output.path ≠ none → after.readText output.path = .ok text
  kept : ∀ other entry, other ≠ place → files.entryAt? other = some entry →
    after.entryAt? other = some entry

/-- No directory and no link has the name of a backup of that moment. -/
def IsFree (output : Output) (files : FileSystem) (moment : Timestamp) : Prop :=
  ∀ archive : output.Archive files,
    files.IsEnd (archive.directory ++ [Backup.nameAt archive.name moment])

theorem IsUnused.isFree {output : Output} {files : FileSystem} {moment : Timestamp}
    (unused : output.IsUnused files moment) : output.IsFree files moment :=
  fun archive => Or.inl (unused.nodeAt?_eq archive.named archive.located archive.isDirectory)

/-- There is one more backup, which has the old text of the output and brings it back. -/
structure Undoable (output : Output) (files after : FileSystem) (text old : String)
    (undo : Path) : Prop where
  original : files.readText output.path = .ok old
  current : after.readText output.path = .ok text
  listed : ∃ before now, perform output.listBackups files = (.ok before, files) ∧
    perform output.listBackups after = (.ok now, after) ∧ now.Perm (undo :: before) ∧
      undo ∉ before
  saved : after.readText undo = .ok old
  undoes : ∀ later final, perform (output.restore undo later) after = (.ok (), final) →
    final.readText output.path = .ok old
  succeeds : ∀ later, output.IsFree after later →
    ∃ final, perform (output.restore undo later) after = (.ok (), final)

section

variable {output : Output} {files saved after : FileSystem} {backup : Path} {now : Timestamp}
  {place directory : Place} {name text old : String}

theorem exists_restored (grounded : files.Grounded files.workingPlace)
    (unused : output.IsUnused files now)
    (performed : perform (output.restore backup now) files = (.ok (), after)) :
    ∃ text place, output.Restored files after backup text place := by
  rcases perform_restore_eq_ok performed with ⟨text, saved, source, copied, evolved, replaced⟩
  rcases FileSystem.replace_eq_ok replaced with ⟨place, mark, found, other, rfl⟩
  have holds : output.Holds place text
      (saved.put place { node := .file text.toUTF8, isReadOnly := mark }) :=
    holds_put found other mark
  refine ⟨text, place, source, evolved.includes.slot?_eq found, holds, holds.readText, ?_⟩
  intro elsewhere entry apart there
  rw [FileSystem.entryAt?_put_of_ne apart]
  rcases copied with ⟨-, rfl⟩ | ⟨copy, copied⟩
  · exact there
  · rcases exists_put_of_backUp grounded unused copied with ⟨archive, old, _, -, -, free, rfl⟩
    rwa [FileSystem.entryAt?_put_of_ne]
    rintro rfl
    rw [FileSystem.nodeAt?_of_entryAt? there] at free
    cases free

/-- An output that was there can be read once a backup is brought back. -/
theorem readText_of_restore (grounded : files.Grounded files.workingPlace)
    (read : files.readText output.path = .ok old) (source : files.readText backup = .ok text)
    (performed : perform (output.restore backup now) files = (.ok (), after)) :
    after.readText output.path = .ok text := by
  rcases perform_restore_eq_ok performed with ⟨text, saved, again, -, evolved, replaced⟩
  cases source.symm.trans again
  exact FileSystem.readText_eq_ok_iff.2 (readContent_of_replace evolved grounded read replaced)

/-- A backup that is read can be brought back if the output can be backed up. -/
theorem exists_restore (grounded : files.Grounded files.workingPlace)
    (archive : output.Archive files) (read : files.readText output.path = .ok old)
    (source : files.readText backup = .ok text) (free : output.IsFree files now) :
    ∃ after, perform (output.restore backup now) files = (.ok (), after) := by
  rcases slot_of_readText grounded archive.named read with ⟨place, found, other⟩
  have ends := free archive
  have located := locate_backup archive.named archive.located archive.isDirectory ends
  rcases FileSystem.exists_write located ends old.toUTF8 with ⟨mark, written⟩
  have copied := perform_backUp_eq archive.named read written
  have still : (files.put (archive.directory ++ [Backup.nameAt archive.name now])
      { node := .file old.toUTF8, isReadOnly := mark }).slot? output.path = some place :=
    (FileSystem.includes_put ends _).slot?_eq found
  have apart := FileSystem.ne_of_slot? found archive.named
    (Backup.nameAt_ne archive.name now) archive.directory
  rw [← FileSystem.nodeAt?_put_of_ne apart.symm] at other
  rcases FileSystem.exists_replace still other text.toUTF8 with ⟨after, replaced⟩
  have present := FileSystem.isPresent_of_readContent (FileSystem.readText_eq_ok_iff.1 source)
  have there := FileSystem.isPresent_of_readContent (FileSystem.readText_eq_ok_iff.1 read)
  refine ⟨after, ?_⟩
  simp only [restore, perform_bind, perform_get, present, if_true, perform_look, source,
    Except.mapError, perform_isPresent, there, copied, replace, perform_change, replaced]

/-- An output that was there is in the directory of the backups, which is where it was. -/
theorem exists_copy (grounded : files.Grounded files.workingPlace)
    (unused : output.IsUnused files now) (present : files.isPresent output.path = true)
    (performed : perform (output.restore backup now) files = (.ok (), after)) :
    ∃ (archive : output.Archive files) (again : output.Archive after) (old : String),
      again.name = archive.name ∧ again.directory = archive.directory ∧
      files.readText output.path = .ok old ∧
      files.nodeAt? (archive.directory ++ [Backup.nameAt archive.name now]) = none ∧
      after.nodeAt? (archive.directory ++ [Backup.nameAt archive.name now]) =
        some (.file old.toUTF8) ∧
      ∀ name, name ≠ archive.name → name ≠ Backup.nameAt archive.name now →
        after.nodeAt? (archive.directory ++ [name]) =
          files.nodeAt? (archive.directory ++ [name]) := by
  rcases perform_restore_eq_ok performed with ⟨text, saved, -, copied, evolved, replaced⟩
  rcases copied with ⟨absent, -⟩ | ⟨undo, copied⟩
  · rw [present] at absent
    cases absent
  rcases exists_put_of_backUp grounded unused copied with
    ⟨archive, old, mark, read, -, free, same⟩
  rcases FileSystem.replace_eq_ok replaced with ⟨place, mark', found, other, rfl⟩
  have isDirectory := evolved.directory _ archive.isDirectory
  have located : saved.locate true output.backups = .ok archive.directory := by
    rw [same]
    apply (FileSystem.includes_put (Or.inl free) _).locate_eq _ archive.located
    rw [← same, isDirectory]
    simp
  -- neither the new backup nor any other one is where the output is
  have apart (name : String) (different : name ≠ archive.name) :
      archive.directory ++ [name] ≠ place :=
    FileSystem.ne_of_slot? found archive.named different archive.directory
  refine ⟨archive, ⟨archive.name, archive.directory, archive.named,
    locate_put_output evolved grounded read found other located isDirectory _ _,
    (evolved.put other _ _).directory _ archive.isDirectory⟩, old, rfl, rfl, read, free, ?_, ?_⟩
  · rw [FileSystem.nodeAt?_put_of_ne (apart _ (Backup.nameAt_ne archive.name now)), same,
      FileSystem.nodeAt?_put_self (by simp)]
  · intro name notOutput notBackup
    rw [FileSystem.nodeAt?_put_of_ne (apart name notOutput), same,
      FileSystem.nodeAt?_put_of_ne (by simpa using notBackup)]

/-- A restore of an output that was there can be undone. -/
theorem exists_undoable (valid : now.isValid = true)
    (grounded : files.Grounded files.workingPlace) (unused : output.IsUnused files now)
    (present : files.isPresent output.path = true) (source : files.readText backup = .ok text)
    (performed : perform (output.restore backup now) files = (.ok (), after)) :
    ∃ old undo, output.Undoable files after text old undo := by
  rcases exists_copy grounded unused present performed with
    ⟨archive, again, old, name_eq, directory_eq, read, free, copy, others⟩
  have evolved : Evolved files after := by
    have kept : Evolved files (perform (output.restore backup now) files).2 :=
      (keptBy_evolved output files).restore backup trivial files (.refl files)
    rwa [performed] at kept
  have groundedAfter : after.Grounded after.workingPlace :=
    evolved.includes.workingPlace ▸ evolved.grounded grounded
  have current := readText_of_restore grounded read source performed
  have saved : after.readText (output.backups.child (Backup.nameAt archive.name now)) =
      .ok old :=
    readText_backup archive.named (directory_eq ▸ again.located)
      (directory_eq ▸ again.isDirectory) copy
  have nodes (name : String) (different : name ≠ archive.name) :
      after.nodeAt? (archive.directory ++ [name]) ≠ none ↔
        name = Backup.nameAt archive.name now ∨
          files.nodeAt? (archive.directory ++ [name]) ≠ none := by
    by_cases own : name = Backup.nameAt archive.name now
    · rw [own, copy]
      simp
    · rw [others name different own]
      simp [own]
  refine ⟨old, _, read, current, ⟨_, _, archive.perform_listBackups, again.perform_listBackups,
    ?_, ?_⟩, saved, ?_, ?_⟩
  · have perm : again.backups.Perm
        (⟨now, Backup.nameAt archive.name now⟩ :: archive.backups) := by
      rw [Archive.backups, name_eq, directory_eq]
      exact archive.perm_listed valid free nodes
    exact perm.map again.path
  · intro member
    rcases List.mem_map.1 member with ⟨other, listed, same⟩
    have names := output.backups.child_injective same
    exact (mem_listed.1 listed).2 (names ▸ free)
  · intro later final again
    exact readText_of_restore groundedAfter current saved again
  · intro later free
    exact exists_restore groundedAfter again current saved free

end

/--
A restore that succeeds has replaced the output by the text of the backup and has kept all
else; if the output was there, what it was before is one more backup, and bringing that one
back undoes the restore.  A restore that fails has left the output as it was, and has changed
nothing if there is no such backup.
-/
theorem restore_exact (output : Output) (files after : FileSystem) (backup : Path)
    (now : Timestamp) (outcome : Except OutputError Unit) (valid : now.isValid = true)
    (grounded : files.Grounded files.workingPlace)
    (performed : perform (output.restore backup now) files = (outcome, after)) :
    (files.isPresent backup = false → outcome = .error (.notFound backup) ∧ after = files) ∧
    (∀ error, outcome = .error error → output.Untouched files after) ∧
    (outcome = .ok () → output.IsUnused files now →
      ∃ text place, output.Restored files after backup text place ∧
        (files.isPresent output.path = true →
          ∃ old undo, output.Undoable files after text old undo) ∧
        (output.path.segments.getLast? = output.path.name? →
          ∀ content, files.nodeAt? place = some (.file content) →
            files.isPresent output.path = true)) := by
  refine ⟨?_, ?_, ?_⟩
  · intro absent
    rcases perform_restore performed with ⟨-, rfl, rfl⟩ | ⟨present, -⟩
    · exact ⟨rfl, rfl⟩
    · rw [absent] at present
      cases present
  · rintro error rfl
    exact untouched_of_restore performed
  · rintro rfl unused
    rcases exists_restored grounded unused performed with ⟨text, place, restored⟩
    refine ⟨text, place, restored, ?_, ?_⟩
    · intro present
      exact exists_undoable valid grounded unused present restored.source performed
    · intro last content file
      have found := node?_eq_some_iff.2 ⟨place, restored.slot, file⟩
      exact isPresent_of_node? last found (by simp)

end Output

/-! ## A draft that takes the place of the output -/

namespace Sample

/-- An output without backups, and a draft to be brought back in its stead. -/
def drafted : FileSystem where
  entries :=
    [(["out.json"], { node := .file "old".toUTF8 }), (["backups"], { node := .directory }),
      (["draft.json"], { node := .file "new".toUTF8 })]

def draftPath : Path := .ofText "draft.json"

theorem readText_draft : drafted.readText draftPath = .ok "new" := by
  have slot : drafted.slot? draftPath = some ["draft.json"] :=
    slot?_alone (by decide) (by decide) rfl
  exact FileSystem.readText_of_slot? slot (by decide) rfl

theorem readText_drafted : drafted.readText archived.path = .ok "old" :=
  readText_archived rfl rfl

def draftedArchive : archived.Archive drafted where
  name := "out.json"
  directory := ["backups"]
  named := name_archived
  located := locate_backups rfl rfl
  isDirectory := rfl

theorem names_drafted : drafted.names archived.backups = .ok [] :=
  names_backups rfl rfl

theorem unused_drafted {output : Output} (beside : output.backups = archived.backups)
    (moment : Timestamp) : output.IsUnused drafted moment := by
  intro name found named listed
  rw [beside] at listed
  cases names_drafted.symm.trans listed
  exact List.not_mem_nil

/-- The draft takes the place of the output, and bringing the new backup back undoes that. -/
theorem drafted_restored :
    archiveTime.isValid = true ∧ drafted.Grounded drafted.workingPlace ∧
      ∃ after, perform (archived.restore draftPath archiveTime) drafted = (.ok (), after) ∧
        after.readText archived.path = .ok "new" ∧
        ∃ undo, after.readText undo = .ok "old" ∧
          ∀ later, archived.IsFree after later →
            ∃ final, perform (archived.restore undo later) after = (.ok (), final) ∧
              final.readText archived.path = .ok "old" := by
  have valid : archiveTime.isValid = true := by decide
  have grounded : drafted.Grounded drafted.workingPlace := drafted.grounded_root
  have unused : archived.IsUnused drafted archiveTime := unused_drafted rfl archiveTime
  rcases Output.exists_restore grounded draftedArchive readText_drafted readText_draft
    unused.isFree with ⟨after, performed⟩
  refine ⟨valid, grounded, after, performed, ?_⟩
  rcases (Output.restore_exact archived drafted after draftPath archiveTime (.ok ()) valid
    grounded performed).2.2 rfl unused with ⟨text, place, restored, undoable, -⟩
  cases readText_draft.symm.trans restored.source
  rcases undoable (FileSystem.isPresent_of_readContent
    (FileSystem.readText_eq_ok_iff.1 readText_drafted)) with ⟨old, undo, undoable⟩
  cases readText_drafted.symm.trans undoable.original
  refine ⟨undoable.current, undo, undoable.saved, ?_⟩
  intro later free
  rcases undoable.succeeds later free with ⟨final, again⟩
  exact ⟨final, again, undoable.undoes later final again⟩

/-- The path of the output is said to lead nowhere, and yet the file there is lost. -/
theorem slashed_restore_loses_output :
    slashed.IsUnused drafted archiveTime ∧
      drafted.nodeAt? ["out.json"] = some (.file "old".toUTF8) ∧
      ∃ after, perform (slashed.restore draftPath archiveTime) drafted = (.ok (), after) ∧
        after.nodeAt? ["out.json"] = some (.file "new".toUTF8) ∧
        perform slashed.listBackups after = (.ok [], after) ∧
        perform slashed.readText after = (.error (.notFound slashed.path), after) := by
  have present : drafted.isPresent draftPath = true :=
    FileSystem.isPresent_of_readContent (FileSystem.readText_eq_ok_iff.1 readText_draft)
  have absent : drafted.isPresent slashed.path = false := isPresent_slashed rfl rfl
  have replaced : drafted.replace slashed.path "new".toUTF8 =
      .ok (drafted.put ["out.json"] { node := .file "new".toUTF8 }) :=
    FileSystem.replace_of_file (slot?_slashed rfl) rfl _
  have restored : perform (slashed.restore draftPath archiveTime) drafted =
      (.ok (), drafted.put ["out.json"] { node := .file "new".toUTF8 }) := by
    simp only [Output.restore, perform_bind, perform_get, present, if_true, perform_look,
      readText_draft, Except.mapError, Output.perform_isPresent, absent, Bool.false_eq_true,
      if_false, Output.replace, perform_change, replaced]
  have beside : slashed.backups = archived.backups := by decide
  have names : (drafted.put ["out.json"] { node := .file "new".toUTF8 }).names
      slashed.backups = .ok [] := by
    rw [beside]
    exact names_backups rfl rfl
  have file : (drafted.put ["out.json"] { node := .file "new".toUTF8 }).nodeAt? ["out.json"] =
      some (.file "new".toUTF8) := FileSystem.nodeAt?_put_self (by simp)
  refine ⟨unused_drafted beside archiveTime, rfl, _, restored, file, ?_, ?_⟩
  · have none : (Backup.among Timestamp.ofText? "out.json" []).map Backup.name = [] := by
      simp [Backup.among]
    exact Output.perform_listBackupsBy_eq name_slashed names none
  · rw [Output.perform_readText, isPresent_slashed rfl file]
    rfl

end Sample

end KeyLayers
