import KeyLayers.Proofs.Output.Listing
import KeyLayers.Proofs.Output.Publication

/-!
# Steps on the output

The same output may be committed to, restored, backed up, pruned and rolled back by
anybody, in any order.  None of these steps makes or removes a directory or makes a link,
and none writes to a backup of another moment.  So every path of the output goes the way
that it went before (`Output.Evolved`), and a backup is as it was or is gone
(`Output.Saved`).
-/

namespace KeyLayers

open FileTask

namespace Output

/-! ## Single steps and runs of them -/

/-- What may be done to an output; a transaction may be any of the same output. -/
inductive Step where
  | start (now : Timestamp)
  | startWithoutBackup
  | commit (transaction : Transaction) (text : String)
  | commitDocument (transaction : Transaction) (document : Document)
  | rollback (transaction : Transaction)
  | backUp (now : Timestamp)
  | restore (backup : Path) (now : Timestamp)
  | prune (keep : Nat)

namespace Step

/-- The step as a task. -/
def run (output : Output) : Step → FileTask Unit
  | start now => do let _ ← Transaction.start output now; return
  | startWithoutBackup => do let _ ← Transaction.startWithoutBackup output; return
  | commit transaction text => do let _ ← { transaction with output }.commit text; return
  | commitDocument transaction document => do
      let _ ← { transaction with output }.commitDocument document; return
  | rollback transaction => { transaction with output }.rollback
  | backUp now => do let _ ← output.backUp now; return
  | restore backup now => output.restore backup now
  | prune keep => do let _ ← output.prune keep; return

/-- The moment of the backup that a step may take. -/
def moment? : Step → Option Timestamp
  | start now | backUp now | restore _ now => some now
  | _ => none

/-- The files after some steps, whether or not each of them succeeds. -/
def runAll (output : Output) (steps : List Step) (files : FileSystem) : FileSystem :=
  steps.foldl (fun files step => (perform (step.run output) files).2) files

end Step

/-- Writing backups and the output keeps a statement true. -/
structure Stable (output : Output) (isFree : Timestamp → Prop) (holds : FileSystem → Prop) :
    Prop where
  write : ∀ files after name now content, isFree now → holds files →
    output.path.name? = some name →
      files.write (output.backups.child (Backup.nameAt name now)) content = .ok after →
        holds after
  replace : ∀ files after content, holds files →
    files.replace output.path content = .ok after → holds after
  remove : ∀ files after, holds files → files.remove output.path = .ok after → holds after

/-- Whatever an output does to single entries keeps a statement true. -/
structure KeptBy (output : Output) (isFree : Timestamp → Prop) (holds : FileSystem → Prop) :
    Prop extends output.Stable isFree holds where
  prune : ∀ files after path, output.IsBackup path → holds files →
    files.remove path = .ok after → holds after

section

variable {output : Output} {isFree : Timestamp → Prop} {holds : FileSystem → Prop}
  {now : Timestamp}

theorem Stable.imp {isFree' : Timestamp → Prop} {holds' : FileSystem → Prop}
    (stable : output.Stable isFree holds) (free : ∀ moment, isFree' moment → isFree moment)
    (same : ∀ files, holds' files ↔ holds files) : output.Stable isFree' holds' where
  write files after name now content unused held named written :=
    (same after).2 (stable.write files after name now content (free now unused)
      ((same files).1 held) named written)
  replace files after content held replaced :=
    (same after).2 (stable.replace files after content ((same files).1 held) replaced)
  remove files after held removed :=
    (same after).2 (stable.remove files after ((same files).1 held) removed)

theorem Stable.and {isFree' : Timestamp → Prop} {holds' : FileSystem → Prop}
    (left : output.Stable isFree holds) (right : output.Stable isFree' holds') :
    output.Stable (fun moment => isFree moment ∧ isFree' moment)
      fun files => holds files ∧ holds' files where
  write files after name now content free held named written :=
    ⟨left.write files after name now content free.1 held.1 named written,
      right.write files after name now content free.2 held.2 named written⟩
  replace files after content held replaced :=
    ⟨left.replace files after content held.1 replaced,
      right.replace files after content held.2 replaced⟩
  remove files after held removed :=
    ⟨left.remove files after held.1 removed, right.remove files after held.2 removed⟩

theorem Stable.backUp (stable : output.Stable isFree holds) (free : isFree now) :
    Keeps holds (output.backUp now) := by
  intro files held
  cases performed : perform (output.backUp now) files with
  | mk outcome after =>
      rcases perform_backUp performed with ⟨-, same⟩ | ⟨text, name, named, -, written, -⟩
      · exact same ▸ held
      · exact stable.write files after name now _ free held named written

theorem Stable.replaceText (stable : output.Stable isFree holds) (text : String) :
    Keeps holds (output.replace text) :=
  Keeps.change fun files after held => stable.replace files after _ held

theorem Stable.start (stable : output.Stable isFree holds) (free : isFree now) :
    Keeps holds (Transaction.start output now) := by
  refine Keeps.bind (fun files held => held) fun isPresent => ?_
  cases isPresent with
  | true => exact Keeps.bind (stable.backUp free) fun backup => Keeps.pure _
  | false => exact Keeps.pure _

theorem Stable.commit (stable : output.Stable isFree holds) (transaction : Transaction)
    (same : transaction.output = output) (text : String) :
    Keeps holds (transaction.commit text) := by
  rw [Transaction.commit, same]
  cases transaction.isCommitted with
  | true => exact Keeps.throw _
  | false => exact Keeps.bind (stable.replaceText text) fun _ => Keeps.pure _

theorem Stable.rollback (stable : output.Stable isFree holds) (transaction : Transaction)
    (same : transaction.output = output) : Keeps holds transaction.rollback := by
  rw [Transaction.rollback, same]
  cases transaction.backup? with
  | some backup => exact Keeps.bind (Keeps.look _) fun text => stable.replaceText text
  | none =>
      cases transaction.existed with
      | true => exact Keeps.throw _
      | false =>
          refine Keeps.bind (fun files held => held) fun isPresent => ?_
          cases isPresent with
          | true => exact Keeps.change fun files after held => stable.remove files after held
          | false => exact Keeps.pure _

theorem Stable.restore (stable : output.Stable isFree holds) (backup : Path) (free : isFree now) :
    Keeps holds (output.restore backup now) := by
  rw [Output.restore]
  have rest : Keeps holds (do
      let text ← look (·.readText backup)
      if ← output.isPresent then
        let _ ← output.backUp now
      output.replace text) := by
    refine Keeps.bind (Keeps.look _) fun text => ?_
    refine Keeps.bind (fun files held => held) fun isPresent => ?_
    cases isPresent with
    | true => exact Keeps.bind (stable.backUp free) fun _ => stable.replaceText text
    | false => exact stable.replaceText text
  refine Keeps.bind Keeps.get fun seen => ?_
  cases seen.isPresent backup with
  | true => exact rest
  | false => exact Keeps.throw _

/-- Every step but pruning writes nothing else. -/
theorem Stable.run (stable : output.Stable isFree holds) {step : Step}
    (unpruned : ∀ keep, step ≠ .prune keep)
    (free : ∀ moment, step.moment? = some moment → isFree moment) :
    Keeps holds (step.run output) := by
  cases step with
  | start now => exact Keeps.bind (stable.start (free now rfl)) fun _ => Keeps.pure _
  | startWithoutBackup => exact fun files held => held
  | commit transaction text =>
      exact Keeps.bind (stable.commit _ rfl text) fun _ => Keeps.pure _
  | commitDocument transaction document =>
      refine Keeps.bind ?_ fun _ => Keeps.pure _
      rw [Transaction.commitDocument]
      cases document.errors with
      | nil => exact stable.commit _ rfl document.text
      | cons first more => exact Keeps.throw _
  | rollback transaction => exact stable.rollback _ rfl
  | backUp now => exact Keeps.bind (stable.backUp (free now rfl)) fun _ => Keeps.pure _
  | restore backup now => exact stable.restore backup (free now rfl)
  | prune keep => exact (unpruned keep rfl).elim

theorem KeptBy.run (kept : output.KeptBy isFree holds) (step : Step)
    (free : ∀ moment, step.moment? = some moment → isFree moment) :
    Keeps holds (step.run output) := by
  cases step with
  | prune keep =>
      refine Keeps.bind (keeps_prune keep ?_) fun _ => Keeps.pure _
      intro path files after
      exact kept.prune files after path
  | _ => exact kept.toStable.run (fun _ => nofun) free

theorem KeptBy.runAll (kept : output.KeptBy isFree holds) {steps : List Step}
    (free : ∀ moment ∈ steps.filterMap Step.moment?, isFree moment) {files : FileSystem}
    (held : holds files) : holds (Step.runAll output steps files) := by
  induction steps generalizing files with
  | nil => exact held
  | cons step rest ih =>
      rw [Step.runAll, List.foldl_cons]
      apply ih
      · intro moment member
        apply free
        rw [List.filterMap_cons]
        cases step.moment? with
        | none => exact member
        | some other => exact List.mem_cons_of_mem other member
      · apply kept.run step _ files held
        intro moment takes
        apply free
        rw [List.filterMap_cons, takes]
        exact List.mem_cons_self

end

/-! ## What the steps leave as it was -/

/-- The directories of two file systems are the same, and no link is new in the later one. -/
structure Evolved (before files : FileSystem) : Prop where
  includes : before.Includes files
  directory : ∀ place, before.nodeAt? place = some .directory →
    files.nodeAt? place = some .directory

section

variable {before files : FileSystem} {place : Place}

theorem Evolved.refl (files : FileSystem) : Evolved files files where
  includes := .refl files
  directory _ found := found

theorem Evolved.put (evolved : Evolved before files)
    (other : files.nodeAt? place ≠ some .directory) (content : ByteArray) (mark : Bool) :
    Evolved before (files.put place { node := .file content, isReadOnly := mark }) where
  includes := evolved.includes.trans
    (FileSystem.includes_of_put (FileSystem.ne_nil_of_not_directory other) content mark)
  directory above found := by
    have still := evolved.directory above found
    rw [FileSystem.nodeAt?_put_of_ne, still]
    rintro rfl
    exact other still

theorem Evolved.erase (evolved : Evolved before files)
    (other : files.nodeAt? place ≠ some .directory) : Evolved before (files.erase place) where
  includes := evolved.includes.trans
    (FileSystem.includes_of_erase (FileSystem.ne_nil_of_not_directory other))
  directory above found := by
    have still := evolved.directory above found
    rw [FileSystem.nodeAt?_erase_of_ne, still]
    rintro rfl
    exact other still

theorem Evolved.grounded (evolved : Evolved before files) (grounded : before.Grounded place) :
    files.Grounded place :=
  fun above within => evolved.directory above (grounded above within)

end

theorem keptBy_evolved (output : Output) (before : FileSystem) :
    output.KeptBy (fun _ => True) (Evolved before) where
  write files after name now content _ evolved _ written := by
    rcases FileSystem.write_eq_ok written with ⟨place, mark, -, ends, -, rfl⟩
    exact evolved.put ends.ne_directory content mark
  replace files after content evolved replaced := by
    rcases FileSystem.replace_eq_ok replaced with ⟨place, mark, -, other, rfl⟩
    exact evolved.put other content mark
  remove files after evolved removed := by
    rcases FileSystem.remove_eq_ok removed with ⟨place, -, other, -, rfl⟩
    exact evolved.erase other
  prune files after path _ evolved removed := by
    rcases FileSystem.remove_eq_ok removed with ⟨place, -, other, -, rfl⟩
    exact evolved.erase other

/-! ## The name at the end of a path -/

section

variable {files : FileSystem} {path : Path} {place : Place}

theorem grounded_origin (grounded : files.Grounded files.workingPlace) (path : Path) :
    files.Grounded (files.origin path) := by
  rw [FileSystem.origin]
  split
  · exact files.grounded_root
  · exact grounded

theorem ne_empty_of_locate {follow : Bool} (located : files.locate follow path = .ok place) :
    path ≠ .empty := by
  rintro rfl
  rw [FileSystem.locate, if_pos rfl] at located
  cases located

/-- What is no directory has the name at the end of its path. -/
theorem getLast?_of_locate (grounded : files.Grounded files.workingPlace) {follow : Bool}
    (located : files.locate follow path = .ok place)
    (other : files.nodeAt? place ≠ some .directory) :
    path.segments.getLast? = path.name? := by
  rw [FileSystem.locate_eq_walk (ne_empty_of_locate located)] at located
  rcases FileSystem.exists_of_walk_not_directory (grounded_origin grounded path) located other
    with ⟨above, name, -, -, split, named, -, -⟩
  have ends : path.segments.getLast? = some name := by rw [split, List.getLast?_concat]
  rw [ends, Path.name?_of_getLast? ends named]

end

/-! ## A backup and its place -/

/-- No entry among the backups has the name of a backup of that moment. -/
def IsUnused (output : Output) (before : FileSystem) (moment : Timestamp) : Prop :=
  ∀ name names, output.path.name? = some name → before.names output.backups = .ok names →
    Backup.nameAt name moment ∉ names

section

variable {output : Output} {before files : FileSystem} {directory place : Place}
  {name : String} {moment now : Timestamp} {text : String}

/-- No link in the directory of the backups has the name of a backup of that moment. -/
def Unlinked (output : Output) (before : FileSystem) (moment : Timestamp) : Prop :=
  ∀ name directory target, output.path.name? = some name →
    before.locate true output.backups = .ok directory →
      before.nodeAt? directory = some .directory →
        before.nodeAt? (directory ++ [Backup.nameAt name moment]) ≠ some (.link target)

theorem IsUnused.nodeAt?_eq (unused : output.IsUnused before moment)
    (named : output.path.name? = some name)
    (located : before.locate true output.backups = .ok directory)
    (isDirectory : before.nodeAt? directory = some .directory) :
    before.nodeAt? (directory ++ [Backup.nameAt name moment]) = none := by
  by_contra found
  exact unused name _ named
    (FileSystem.names_eq_ok_iff.2 ⟨directory, located, isDirectory, rfl⟩)
    (FileSystem.mem_namesAt_iff.2 found)

theorem IsUnused.unlinked (unused : output.IsUnused before moment) :
    output.Unlinked before moment := by
  intro name directory target named located isDirectory
  rw [unused.nodeAt?_eq named located isDirectory]
  nofun

/-- The way to the directory of the backups was there before, if it is there now. -/
theorem exists_way_of_locate_backup (included : before.Includes files)
    (named : Path.IsName name) {follow : Bool}
    (located : files.locate follow (output.backups.child name) = .ok place) :
    ∃ directory left,
      FileSystem.Way before FileSystem.greatestLinks (before.origin output.backups)
          output.backups.segments left directory ∧
        files.locate true output.backups = .ok directory ∧
          files.walk follow left directory [name] = .ok place := by
  rcases FileSystem.exists_of_locate_child output.backups_ne_empty named located with
    ⟨directory, left, way, again, last⟩
  have origin_eq : files.origin output.backups = before.origin output.backups := by
    rw [FileSystem.origin, FileSystem.origin, included.workingPlace]
  rw [origin_eq] at way
  exact ⟨directory, left, way.of_includes included, again, last⟩

/-- The directory of the backups is where it was, whatever has been done since. -/
theorem exists_of_locate_backup (evolved : Evolved before files)
    (grounded : before.Grounded before.workingPlace) (named : Path.IsName name)
    (located : files.locate true (output.backups.child name) = .ok place) :
    ∃ directory left, before.locate true output.backups = .ok directory ∧
      before.nodeAt? directory = some .directory ∧
        files.walk true left directory [name] = .ok place := by
  rcases exists_way_of_locate_backup evolved.includes named located with
    ⟨directory, left, earlier, -, last⟩
  refine ⟨directory, left, ?_, ?_, last⟩
  · rw [FileSystem.locate_eq_walk output.backups_ne_empty, earlier.walk_eq]
  · exact (earlier.grounded (grounded_origin grounded _)).directory

theorem isName_nameAt (named : output.path.name? = some name) (moment : Timestamp) :
    Path.IsName (Backup.nameAt name moment) :=
  Backup.isName_stem (Path.segments_of_name named).1 moment.text

/-- A backup is written to its own place. -/
theorem place_of_backup (evolved : Evolved before files)
    (grounded : before.Grounded before.workingPlace)
    (named : output.path.name? = some name) (unlinked : output.Unlinked before moment)
    (located : files.locate true (output.backups.child (Backup.nameAt name moment)) =
      .ok place) :
    ∃ directory, before.locate true output.backups = .ok directory ∧
      place = directory ++ [Backup.nameAt name moment] := by
  have isName := isName_nameAt named moment
  rcases exists_of_locate_backup evolved grounded isName located with
    ⟨directory, left, above, isDirectory, last⟩
  rw [FileSystem.walk_last isName] at last
  · cases last
    exact ⟨directory, above, rfl⟩
  · intro _ target link
    exact unlinked name directory target named above isDirectory
      (evolved.includes.link _ target link)

/-- A backup has its place in the directory of the backups, if no link is in its stead. -/
theorem locate_backup (named : output.path.name? = some name)
    (located : files.locate true output.backups = .ok directory)
    (isDirectory : files.nodeAt? directory = some .directory)
    (ends : files.IsEnd (directory ++ [Backup.nameAt name moment])) :
    files.locate true (output.backups.child (Backup.nameAt name moment)) =
      .ok (directory ++ [Backup.nameAt name moment]) := by
  apply FileSystem.locate_child_of_directory output.backups_ne_empty located isDirectory
    (isName_nameAt named moment)
  intro _ target link
  exact (ends.ne_link target link).elim

/-- A backup that is a file can be read. -/
theorem readText_backup (named : output.path.name? = some name)
    (located : files.locate true output.backups = .ok directory)
    (isDirectory : files.nodeAt? directory = some .directory)
    (file : files.nodeAt? (directory ++ [Backup.nameAt name now]) =
      some (.file text.toUTF8)) :
    files.readText (output.backups.child (Backup.nameAt name now)) = .ok text := by
  have reached := locate_backup named located isDirectory (Or.inr ⟨text.toUTF8, file⟩)
  apply FileSystem.readText_eq_ok_iff.2
  exact FileSystem.readContent_eq_ok_iff.2 ⟨_, reached, file⟩

/-- A backup is a new file, or is written over an older one of its name. -/
theorem write_backup_eq (named : output.path.name? = some name)
    (located : files.locate true output.backups = .ok directory)
    (isDirectory : files.nodeAt? directory = some .directory)
    (free : ∀ entry, files.entryAt? (directory ++ [Backup.nameAt name moment]) = some entry →
      ∃ old, entry = { node := .file old }) (content : ByteArray) :
    files.write (output.backups.child (Backup.nameAt name moment)) content =
      .ok (files.put (directory ++ [Backup.nameAt name moment]) { node := .file content }) := by
  cases found : files.entryAt? (directory ++ [Backup.nameAt name moment]) with
  | none =>
      have ends : files.IsEnd (directory ++ [Backup.nameAt name moment]) :=
        Or.inl (FileSystem.nodeAt?_eq_none_iff.2 found)
      rw [FileSystem.write, locate_backup named located isDirectory ends]
      simp only [bind, Except.bind, found]
  | some entry =>
      rcases free entry found with ⟨old, rfl⟩
      have ends : files.IsEnd (directory ++ [Backup.nameAt name moment]) :=
        Or.inr ⟨old, FileSystem.nodeAt?_of_entryAt? found⟩
      rw [FileSystem.write, locate_backup named located isDirectory ends]
      simp only [bind, Except.bind, found]

/-- At the place of the backup there is what was there at the beginning, or nothing. -/
structure Saved (before : FileSystem) (place : Place) (text : String) (files : FileSystem) :
    Prop where
  evolved : Evolved before files
  backup : files.nodeAt? place = none ∨ files.nodeAt? place = some (.file text.toUTF8)

/-- An output that is no directory is found under its name, at the end of its path. -/
theorem exists_of_locate_output (named : output.path.name? = some name)
    (grounded : files.Grounded files.workingPlace) {follow : Bool}
    (located : files.locate follow output.path = .ok place)
    (other : files.nodeAt? place ≠ some .directory) :
    output.path.segments.getLast? = output.path.name? ∧
      ∃ directory left, files.locate true output.path.directory = .ok directory ∧
        files.nodeAt? directory = some .directory ∧
          files.walk follow left directory [name] = .ok place := by
  have last := getLast?_of_locate grounded located other
  refine ⟨last, ?_⟩
  rw [FileSystem.locate_of_last named last] at located
  rcases FileSystem.way_of_walk (by simp) located with ⟨left, directory, way⟩
  rw [way.walk_append (Or.inr (by simp))] at located
  refine ⟨directory, left, ?_, (way.grounded (grounded_origin grounded _)).directory, located⟩
  rw [FileSystem.locate_eq_walk output.path.directory_ne_empty, way.walk_eq]

/-- A path that ends in another name does not lead to a backup. -/
theorem ne_backup {above : Place} (directory : Place) (name : String) (now : Timestamp) :
    directory ++ [Backup.nameAt name now] ≠ above ++ [name] := by
  intro same
  exact Backup.nameAt_ne name now (List.singleton_inj.1 (List.append_inj' same rfl).2)

/-- What is at the place of a backup stays as long as no other one has its name. -/
theorem stable_at (directory : Place) (now : Timestamp) (isKept : Option Node → Prop)
    (grounded : before.Grounded before.workingPlace)
    (named : output.path.name? = some name) :
    output.Stable (fun moment => output.Unlinked before moment ∧ moment.text ≠ now.text)
      fun files => Evolved before files ∧
        isKept (files.nodeAt? (directory ++ [Backup.nameAt name now])) := by
  constructor
  case write =>
    rintro files after other moment content ⟨unlinked, different⟩ ⟨evolved, kept⟩ also
      written
    rw [named, Option.some.injEq] at also
    subst also
    rcases FileSystem.write_eq_ok written with ⟨place, mark, reached, ends, -, rfl⟩
    rcases place_of_backup evolved grounded named unlinked reached with ⟨again, -, rfl⟩
    refine ⟨evolved.put ends.ne_directory content mark, ?_⟩
    rwa [FileSystem.nodeAt?_put_of_ne]
    intro same
    have names := (List.append_inj' same rfl).2
    rw [List.singleton_inj] at names
    exact different (Backup.text_of_nameAt names).symm
  case replace =>
    rintro files after content ⟨evolved, kept⟩ replaced
    rcases FileSystem.replace_eq_ok replaced with ⟨place, mark, found, other, rfl⟩
    refine ⟨evolved.put other content mark, ?_⟩
    rwa [FileSystem.nodeAt?_put_of_ne
      (FileSystem.ne_of_slot? found named (Backup.nameAt_ne name now) directory)]
  case remove =>
    rintro files after ⟨evolved, kept⟩ removed
    rcases FileSystem.remove_eq_ok removed with ⟨place, reached, other, -, rfl⟩
    refine ⟨evolved.erase other, ?_⟩
    have workingPlace := evolved.includes.workingPlace
    rcases exists_of_locate_output named (workingPlace ▸ evolved.grounded grounded) reached
      other with ⟨-, above, left, -, -, last⟩
    rw [FileSystem.walk_last (Path.segments_of_name named).1 (by simp)] at last
    cases last
    rwa [FileSystem.nodeAt?_erase_of_ne (ne_backup directory name now)]

theorem keptBy_saved (grounded : before.Grounded before.workingPlace)
    (named : output.path.name? = some name) :
    output.KeptBy (fun moment => output.IsUnused before moment ∧ moment.text ≠ now.text)
      (Saved before (directory ++ [Backup.nameAt name now]) text) where
  toStable := by
    apply (stable_at directory now (fun node => node = none ∨ node = some (.file text.toUTF8))
      grounded named).imp
    · rintro moment ⟨unused, different⟩
      exact ⟨unused.unlinked, different⟩
    · intro files
      exact ⟨fun saved => ⟨saved.evolved, saved.backup⟩, fun both => ⟨both.1, both.2⟩⟩
  prune files after path _ saved removed := by
    rcases FileSystem.remove_eq_ok removed with ⟨place, -, other, -, rfl⟩
    refine ⟨saved.evolved.erase other, ?_⟩
    by_cases same : directory ++ [Backup.nameAt name now] = place
    · exact Or.inl (same ▸ FileSystem.nodeAt?_erase_self (by simp))
    · rw [FileSystem.nodeAt?_erase_of_ne same]
      exact saved.backup

end

end Output

end KeyLayers
