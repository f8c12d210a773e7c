import KeyLayers.Proofs.Output.Rollback

/-!
# How long a backup stays what it was

A backup has its name from the second in which it was taken, and another backup
of the same second is written over it.  Nothing else that is done to an output
touches a backup, unless backups are pruned: the output is written, replaced and
removed under its own name, and every other second has a name of its own.

As long as neither the output nor a backup is a link, everything that is written
or removed is a file, so all paths lead where they led (`SameWays`).
-/

namespace KeyLayers

open FileTask

namespace Output

/-! ## What may be done to an output -/

/-- A step of one's own, or a change of the output by somebody else. -/
inductive Act where
  | own (step : Step)
  /-- Somebody writes to the output in place. -/
  | overwrite (content : ByteArray)
  /-- Somebody puts a new file in place of the output. -/
  | substitute (content : ByteArray)
  | delete

namespace Act

/-- The act as a task. -/
def run (output : Output) : Act → FileTask Unit
  | own step => step.run output
  | overwrite content => change (·.write output.path content) .files
  | substitute content => change (·.replace output.path content) .files
  | delete => change (·.remove output.path) .files

/-- The moment of the backup that an act may take. -/
def moment? : Act → Option Timestamp
  | own step => step.moment?
  | _ => none

/-- The backup that an act hands out. -/
def backup? (output : Output) (files : FileSystem) : Act → Option Path
  | own (.backUp now) => (perform (output.backUp now) files).1.toOption
  | own (.start now) =>
      (perform (Transaction.start output now) files).1.toOption.bind Transaction.backup?
  | _ => none

/-- The files after some acts, whether or not each of them succeeds. -/
def runAll (output : Output) (acts : List Act) (files : FileSystem) : FileSystem :=
  acts.foldl (fun files act => (perform (act.run output) files).2) files

theorem runAll_append (output : Output) (acts others : List Act) (files : FileSystem) :
    runAll output (acts ++ others) files = runAll output others (runAll output acts files) :=
  List.foldl_append

end Act

variable {output : Output} {isFree : Timestamp → Prop} {holds : FileSystem → Prop}

theorem Stable.act (stable : output.Stable isFree holds)
    (overwrite : ∀ files after content, holds files →
      files.write output.path content = .ok after → holds after) {act : Act}
    (unpruned : ∀ keep, act ≠ .own (.prune keep))
    (free : ∀ moment, act.moment? = some moment → isFree moment) :
    Keeps holds (act.run output) := by
  cases act with
  | own step =>
      refine stable.run (fun keep same => unpruned keep ?_) free
      rw [same]
  | overwrite content => exact Keeps.change fun files after held => overwrite files after _ held
  | substitute content =>
      exact Keeps.change fun files after held => stable.replace files after _ held
  | delete => exact Keeps.change fun files after held => stable.remove files after held

theorem Stable.acts (stable : output.Stable isFree holds)
    (overwrite : ∀ files after content, holds files →
      files.write output.path content = .ok after → holds after) {acts : List Act}
    (unpruned : ∀ keep, .own (.prune keep) ∉ acts)
    (free : ∀ moment ∈ acts.filterMap Act.moment?, isFree moment) {files : FileSystem}
    (held : holds files) : holds (Act.runAll output acts files) := by
  induction acts generalizing files with
  | nil => exact held
  | cons act rest ih =>
      rw [Act.runAll, List.foldl_cons]
      apply ih
      · intro keep member
        exact unpruned keep (.tail _ member)
      · intro moment member
        rcases List.mem_filterMap.1 member with ⟨other, later, takes⟩
        exact free moment (List.mem_filterMap.2 ⟨other, .tail _ later, takes⟩)
      · refine stable.act overwrite ?_ ?_ files held
        · rintro keep rfl
          exact unpruned keep (.head _)
        · intro moment takes
          exact free moment (List.mem_filterMap.2 ⟨act, .head _, takes⟩)

/-! ## The ways stay open -/

/-- All directories and links are where they were, and there are no others. -/
structure SameWays (before files : FileSystem) : Prop where
  kept : files.Includes before
  earlier : before.Includes files

section

variable {before files after : FileSystem} {place : Place} {name : String}

theorem SameWays.refl (files : FileSystem) : SameWays files files :=
  ⟨.refl files, .refl files⟩

theorem SameWays.evolved (same : SameWays before files) : Evolved before files where
  includes := same.earlier
  directory := same.kept.directory

theorem SameWays.put (same : SameWays before files) (ends : files.IsEnd place)
    (content : ByteArray) (mark : Bool) :
    SameWays before (files.put place { node := .file content, isReadOnly := mark }) where
  kept := (FileSystem.includes_put ends _).trans same.kept
  earlier := same.earlier.trans (FileSystem.includes_of_put
    (FileSystem.ne_nil_of_not_directory ends.ne_directory) content mark)

theorem SameWays.erase (same : SameWays before files) (ends : files.IsEnd place) :
    SameWays before (files.erase place) where
  kept := (FileSystem.includes_of_isEnd ends
    (fun _ different => FileSystem.nodeAt?_erase_of_ne different) rfl).trans same.kept
  earlier := same.earlier.trans (FileSystem.includes_of_erase
    (FileSystem.ne_nil_of_not_directory ends.ne_directory))

/-- The output is no link. -/
def IsPlain (output : Output) (files : FileSystem) : Prop :=
  ∀ place target, files.slot? output.path = some place →
    files.nodeAt? place ≠ some (.link target)

theorem IsPlain.of_sameWays (plain : output.IsPlain before) (same : SameWays before files) :
    output.IsPlain files := by
  intro place target found link
  exact plain place target (same.earlier.slot?_eq found) (same.earlier.link place target link)

/-- What an output that is no link leads to has its place under the name of the output. -/
theorem slot_of_locate (plain : output.IsPlain files)
    (grounded : files.Grounded files.workingPlace) (named : output.path.name? = some name)
    {follow : Bool} (located : files.locate follow output.path = .ok place)
    (other : files.nodeAt? place ≠ some .directory) :
    files.slot? output.path = some place := by
  rcases exists_of_locate_output named grounded located other with
    ⟨-, directory, left, reached, isDirectory, last⟩
  have found : files.slot? output.path = some (directory ++ [name]) :=
    FileSystem.slot?_eq_some_iff.2 ⟨name, directory, named, reached, isDirectory, rfl⟩
  rw [FileSystem.walk_last (Path.segments_of_name named).1] at last
  · cases last
    exact found
  · intro _ target
    exact plain _ target found

theorem isEnd_of_slot (plain : output.IsPlain files)
    (found : files.slot? output.path = some place)
    (other : files.nodeAt? place ≠ some .directory) : files.IsEnd place := by
  cases node : files.nodeAt? place with
  | none => exact Or.inl node
  | some entry =>
      cases entry with
      | file content => exact Or.inr ⟨content, node⟩
      | directory => exact absurd node other
      | link target => exact absurd node (plain place target found)

theorem stable_sameWays (grounded : before.Grounded before.workingPlace)
    (named : output.path.name? = some name) (plain : output.IsPlain before) :
    output.Stable (fun _ => True) (SameWays before) where
  write files after own now content _ same _ written := by
    rcases FileSystem.write_eq_ok written with ⟨place, mark, -, ends, -, rfl⟩
    exact same.put ends content mark
  replace files after content same replaced := by
    rcases FileSystem.replace_eq_ok replaced with ⟨place, mark, found, other, rfl⟩
    exact same.put (isEnd_of_slot (plain.of_sameWays same) found other) content mark
  remove files after same removed := by
    rcases FileSystem.remove_eq_ok removed with ⟨place, reached, other, -, rfl⟩
    have plainNow := plain.of_sameWays same
    have groundedNow : files.Grounded files.workingPlace :=
      same.kept.workingPlace ▸ same.evolved.grounded grounded
    have found := slot_of_locate plainNow groundedNow named reached other
    exact same.erase (isEnd_of_slot plainNow found other)

/-! ## The backup stays -/

/-- All ways are those from the beginning, and a backup has its text. -/
structure Retained (before : FileSystem) (place : Place) (text : String) (files : FileSystem) :
    Prop where
  ways : SameWays before files
  backup : files.nodeAt? place = some (.file text.toUTF8)

variable {directory : Place} {now : Timestamp} {text : String}

theorem stable_retained (directory : Place) (now : Timestamp) (text : String)
    (grounded : before.Grounded before.workingPlace)
    (named : output.path.name? = some name) (plain : output.IsPlain before) :
    output.Stable (fun moment => output.Unlinked before moment ∧ moment.text ≠ now.text)
      (Retained before (directory ++ [Backup.nameAt name now]) text) := by
  have ways := stable_sameWays grounded named plain
  have backup := stable_at directory now (· = some (.file text.toUTF8)) grounded named
  apply (ways.and backup).imp
  · intro moment free
    exact ⟨trivial, free⟩
  · intro files
    exact ⟨fun retained => ⟨retained.ways, retained.ways.evolved, retained.backup⟩,
      fun both => ⟨both.1, both.2.2⟩⟩

theorem sameWays_of_overwrite (same : SameWays before files) {path : Path}
    {content : ByteArray} (written : files.write path content = .ok after) :
    SameWays before after := by
  rcases FileSystem.write_eq_ok written with ⟨place, mark, -, ends, -, rfl⟩
  exact same.put ends content mark

theorem retained_of_overwrite (grounded : before.Grounded before.workingPlace)
    (named : output.path.name? = some name) (plain : output.IsPlain before)
    (retained : Retained before (directory ++ [Backup.nameAt name now]) text files)
    {content : ByteArray} (written : files.write output.path content = .ok after) :
    Retained before (directory ++ [Backup.nameAt name now]) text after := by
  refine ⟨sameWays_of_overwrite retained.ways written, ?_⟩
  rcases FileSystem.write_eq_ok written with ⟨place, mark, reached, ends, -, rfl⟩
  have groundedNow : files.Grounded files.workingPlace :=
    retained.ways.kept.workingPlace ▸ retained.ways.evolved.grounded grounded
  have found := slot_of_locate (plain.of_sameWays retained.ways) groundedNow named reached
    ends.ne_directory
  rw [FileSystem.nodeAt?_put_of_ne
    (FileSystem.ne_of_slot? found named (Backup.nameAt_ne name now) directory)]
  exact retained.backup

/-- An act that hands out a backup has copied the output to it. -/
theorem Act.exists_of_backup? {act : Act} {backup : Path} (takes : act.moment? = some now)
    (taken : act.backup? output files = some backup) :
    ∃ text name, output.path.name? = some name ∧ files.readText output.path = .ok text ∧
      backup = output.backups.child (Backup.nameAt name now) ∧
        files.write backup text.toUTF8 = .ok (perform (act.run output) files).2 := by
  rcases act with (moment | _ | _ | _ | _ | moment | _ | _) | _ | _ | _
  case own.start =>
    cases takes
    simp only [Act.backup?] at taken
    cases performed : perform (Transaction.start output now) files with
    | mk outcome after =>
        rw [performed] at taken
        cases outcome with
        | error error => cases taken
        | ok transaction =>
            have ran : (perform ((Act.own (.start now)).run output) files).2 = after := by
              simp only [Act.run, Step.run, perform_bind, performed, perform_pure]
            rw [ran]
            rcases Transaction.perform_start_eq_ok performed with
              ⟨-, -, rfl⟩ | ⟨text, name, named, read, written, rfl⟩
            · cases taken
            · cases taken
              exact ⟨text, name, named, read, rfl, written⟩
  case own.backUp =>
    cases takes
    simp only [Act.backup?] at taken
    cases performed : perform (output.backUp now) files with
    | mk outcome after =>
        rw [performed] at taken
        cases outcome with
        | error error => cases taken
        | ok path =>
            cases taken
            have ran : (perform ((Act.own (.backUp now)).run output) files).2 = after := by
              simp only [Act.run, Step.run, perform_bind, performed, perform_pure]
            rw [ran]
            rcases perform_backUp performed with
              ⟨⟨error, impossible⟩, -⟩ | ⟨text, name, named, read, written, same⟩
            · cases impossible
            · cases same
              exact ⟨text, name, named, read, rfl, written⟩
  all_goals cases taken

/-- A path leads where it led, while all ways are the same and a file is there. -/
theorem SameWays.readText_eq (same : SameWays files after) {path : Path}
    (located : files.locate true path = .ok place)
    (file : after.nodeAt? place = some (.file text.toUTF8)) :
    after.readText path = .ok text := by
  apply FileSystem.readText_eq_ok_iff.2
  apply FileSystem.readContent_eq_ok_iff.2
  refine ⟨place, same.kept.locate_eq ?_ located, file⟩
  intro _ target link
  rw [file] at link
  cases link

theorem SameWays.between (first : SameWays before files) (second : SameWays before after) :
    SameWays files after where
  kept := second.kept.trans first.earlier
  earlier := first.kept.trans second.earlier

end

/--
As long as nothing is pruned and no later backup is from the same second, a backup
that has been handed out holds the text that the output had at that moment.
-/
theorem backup_retained (output : Output) (before : FileSystem)
    (grounded : before.Grounded before.workingPlace) (plain : output.IsPlain before)
    (earlier later : List Act) (act : Act) (now : Timestamp) (backup : Path)
    (unlinked : ∀ moment ∈ (earlier ++ act :: later).filterMap Act.moment?,
      output.Unlinked before moment)
    (unpruned : ∀ keep, .own (.prune keep) ∉ earlier ++ act :: later)
    (takes : act.moment? = some now)
    (taken : act.backup? output (Act.runAll output earlier before) = some backup)
    (fresh : ∀ moment ∈ later.filterMap Act.moment?, moment.text ≠ now.text) :
    ∃ text, (Act.runAll output earlier before).readText output.path = .ok text ∧
      (Act.runAll output (earlier ++ act :: later) before).readText backup = .ok text := by
  rcases Act.exists_of_backup? takes taken with ⟨text, name, named, read, rfl, written⟩
  refine ⟨text, read, ?_⟩
  simp only [List.filterMap_append, List.filterMap_cons_some takes, List.mem_append,
    List.mem_cons] at unlinked
  simp only [List.mem_append, List.mem_cons, not_or] at unpruned
  have ways : SameWays before (Act.runAll output earlier before) :=
    (stable_sameWays grounded named plain).acts
      (fun _ _ _ same overwritten => sameWays_of_overwrite same overwritten)
      (fun keep => (unpruned keep).1) (fun _ _ => trivial) (.refl before)
  rcases FileSystem.write_eq_ok written with ⟨place, mark, located, ends, -, copied⟩
  have unlinkedNow := unlinked now (Or.inr (Or.inl rfl))
  rcases place_of_backup ways.evolved grounded named unlinkedNow located with
    ⟨directory, -, rfl⟩
  have first : Retained before (directory ++ [Backup.nameAt name now]) text
      (perform (act.run output) (Act.runAll output earlier before)).2 := by
    rw [copied]
    exact ⟨ways.put ends text.toUTF8 mark, FileSystem.nodeAt?_put_self (by simp)⟩
  have last := (stable_retained directory now text grounded named plain).acts
    (fun _ _ _ retained overwritten =>
      retained_of_overwrite grounded named plain retained overwritten)
    (fun keep => (unpruned keep).2.2)
    (fun moment member => ⟨unlinked moment (Or.inr (Or.inr member)), fresh moment member⟩)
    first
  rw [Act.runAll_append, Act.runAll, List.foldl_cons]
  exact (ways.between last.ways).readText_eq located last.backup

end Output

namespace Sample

theorem backUp_archive :
    perform (archived.backUp archiveTime) archive =
      (.ok (archived.backups.child backupName), backedUp) := by
  apply Output.perform_backUp_eq name_archived (readText_archived rfl rfl)
  apply Output.write_backup_eq name_archived (locate_backups rfl rfl) rfl
  intro entry found
  cases entryAt?_backup_archive.symm.trans found

/-- The backup stays while the output is replaced and removed. -/
theorem archive_retained :
    archive.Grounded archive.workingPlace ∧ archived.IsPlain archive ∧
      archived.Unlinked archive archiveTime ∧
      (Output.Act.own (.backUp archiveTime)).backup? archived archive =
        some (archived.backups.child backupName) ∧
      ∃ text, archive.readText archived.path = .ok text ∧
        (Output.Act.runAll archived
          [.own (.backUp archiveTime), .substitute "new".toUTF8, .delete] archive).readText
            (archived.backups.child backupName) = .ok text := by
  have plain : archived.IsPlain archive := by
    intro place target found
    cases (slot?_archived rfl).symm.trans found
    have file : archive.nodeAt? ["out.json"] = some (.file "old".toUTF8) := rfl
    rw [file]
    intro link
    cases link
  have unlinked := (unused_archive archiveTime).unlinked
  have taken : (Output.Act.own (.backUp archiveTime)).backup? archived archive =
      some (archived.backups.child backupName) := by
    simp only [Output.Act.backup?, backUp_archive]
    rfl
  refine ⟨grounded_archive, plain, unlinked, taken, ?_⟩
  exact Output.backup_retained archived archive grounded_archive plain []
    [.substitute "new".toUTF8, .delete] (.own (.backUp archiveTime)) archiveTime _
    (fun moment _ => (unused_archive moment).unlinked) (by simp) rfl taken
    (by simp [Output.Act.moment?])

/-! ## Two backups of one second -/

/-- The backup has been taken, and the output has been replaced since. -/
def renewed : FileSystem :=
  backedUp.put ["out.json"] { node := .file "new".toUTF8 }

/-- The files once the output has been backed up again in the same second. -/
def overwritten : FileSystem :=
  renewed.put ["backups", backupName] { node := .file "new".toUTF8 }

theorem replace_backedUp :
    backedUp.replace archived.path "new".toUTF8 = .ok renewed :=
  FileSystem.replace_of_file (slot?_archived rfl) rfl _

theorem backUp_renewed :
    perform (archived.backUp archiveTime) renewed =
      (.ok (archived.backups.child backupName), overwritten) := by
  have kept : renewed.entryAt? ["backups", backupName] =
      some { node := .file "old".toUTF8 } := by
    rw [renewed, FileSystem.entryAt?_put_of_ne (by simp), backedUp,
      FileSystem.entryAt?_put_self (by simp)]
  have file : renewed.nodeAt? ["out.json"] = some (.file "new".toUTF8) :=
    FileSystem.nodeAt?_put_self (by simp)
  apply Output.perform_backUp_eq name_archived (readText_archived rfl file)
  apply Output.write_backup_eq name_archived (locate_backups rfl rfl)
  · rfl
  · intro entry found
    cases kept.symm.trans found
    exact ⟨_, rfl⟩

/-- A second backup of the same second is written over the first one. -/
theorem second_backup_overwrites :
    (Output.Act.own (.backUp archiveTime)).backup? archived archive =
        some (archived.backups.child backupName) ∧
      (Output.Act.runAll archived [.own (.backUp archiveTime)] archive).readText
        (archived.backups.child backupName) = .ok "old" ∧
      (Output.Act.runAll archived
        [.own (.backUp archiveTime), .substitute "new".toUTF8, .own (.backUp archiveTime)]
          archive).readText (archived.backups.child backupName) = .ok "new" := by
  have once : Output.Act.runAll archived [.own (.backUp archiveTime)] archive = backedUp := by
    simp only [Output.Act.runAll, List.foldl_cons, List.foldl_nil, Output.Act.run,
      Output.Step.run, perform_bind, backUp_archive, perform_pure]
  have twice : Output.Act.runAll archived
      [.own (.backUp archiveTime), .substitute "new".toUTF8, .own (.backUp archiveTime)]
        archive = overwritten := by
    simp only [Output.Act.runAll, List.foldl_cons, List.foldl_nil, Output.Act.run,
      Output.Step.run, perform_bind, backUp_archive, perform_pure, perform_change,
      replace_backedUp, backUp_renewed]
  refine ⟨?_, ?_, ?_⟩
  · simp only [Output.Act.backup?, backUp_archive]
    rfl
  · rw [once]
    apply Output.readText_backup name_archived (locate_backups rfl rfl)
    · rfl
    · exact FileSystem.nodeAt?_put_self (by simp)
  · rw [twice]
    apply Output.readText_backup name_archived (locate_backups rfl rfl)
    · rfl
    · exact FileSystem.nodeAt?_put_self (by simp)

end Sample

end KeyLayers
