import KeyLayers.Proofs.Output.Build
import KeyLayers.Proofs.Output.Pruning
import KeyLayers.Proofs.Output.Rollback

/-!
# Whether a backup outlives its build

A build takes a backup first and removes old backups last, and it does not tell
its own backup from older ones.  The backup that it reports is there afterwards
exactly if fewer backups come before it in the list than are to be kept.  Those
are the backups with a later moment in their names: the clock may have been set
back since, and a name may carry any moment.
-/

namespace KeyLayers

open FileTask

/-! ## The place of a backup in the list -/

namespace Backup

/-- Whether a backup stands before another one in a list. -/
def precedes (backup other : Backup) : Bool :=
  backup != other && backup.isBefore other

/-- In an ordered list, the place of a backup is the number of those before it. -/
theorem mem_drop_iff {backups : List Backup} {backup : Backup} {keep : Nat}
    (sorted : backups.Pairwise (·.isBefore ·)) (nodup : backups.Nodup)
    (member : backup ∈ backups) :
    backup ∈ backups.drop keep ↔ keep ≤ (backups.filter (·.precedes backup)).length := by
  rcases List.append_of_mem member with ⟨front, rest, rfl⟩
  rw [List.nodup_append, List.nodup_cons] at nodup
  rcases nodup with ⟨-, ⟨notLater, -⟩, apart⟩
  rw [List.pairwise_append, List.pairwise_cons] at sorted
  rcases sorted with ⟨-, ⟨before, -⟩, ahead⟩
  have notEarlier : backup ∉ front := fun earlier => apart _ earlier _ (.head _) rfl
  have exactly : (front ++ backup :: rest).filter (·.precedes backup) = front := by
    rw [List.filter_append, List.filter_cons_of_neg (by simp [precedes]),
      List.filter_eq_self.2, List.filter_eq_nil_iff.2, List.append_nil]
    · intro other later precedes
      rw [Backup.precedes, Bool.and_eq_true, bne_iff_ne] at precedes
      exact precedes.1 (eq_of_isBefore precedes.2 (before other later))
    · intro other earlier
      rw [precedes, Bool.and_eq_true, bne_iff_ne]
      exact ⟨fun same => notEarlier (same ▸ earlier), ahead other earlier _ (.head _)⟩
  rw [exactly, List.drop_append, List.mem_append]
  constructor
  · intro kept
    by_contra few
    rw [List.drop_of_length_le (by omega)] at kept
    rcases kept with kept | kept
    · cases kept
    · obtain ⟨more, excess⟩ : ∃ more, keep - front.length = more + 1 :=
        ⟨keep - front.length - 1, by omega⟩
      rw [excess, List.drop_succ_cons] at kept
      exact notLater (List.mem_of_mem_drop kept)
  · intro few
    rw [Nat.sub_eq_zero_of_le few]
    exact Or.inr (.head _)

end Backup

namespace Output

/-! ## Pruning -/

section

variable {output : Output} {before files after : FileSystem} {directory : Place}

/-- Pruning removes what stands behind the backups to keep, and all else beside it stays. -/
theorem perform_prune_eq_ok {keep count : Nat} (evolved : Evolved before files)
    (performed : perform (output.prune keep) files = (.ok count, after)) :
    ∃ name directory, output.path.name? = some name ∧
      before.locate true output.backups = .ok directory ∧ Evolved before after ∧
        ∀ other, after.nodeAt? (directory ++ [other]) =
          if other ∈ ((listed name files directory).drop keep).map Backup.name then none
          else files.nodeAt? (directory ++ [other]) := by
  rcases perform_bind_eq_ok_iff.1 performed with ⟨paths, middle, found, -⟩
  rcases perform_listBackups_eq_ok.1 found with ⟨-, archive, -⟩
  rcases archive.perform_prune performed with
    ⟨removed, left, split, rfl, notDirectory, ⟨rfl, -⟩ | ⟨_, _, _, -, -, impossible⟩⟩
  case inr => cases impossible
  rw [List.append_nil] at split
  subst split
  refine ⟨archive.name, archive.directory, archive.named, ?_, ?_, ?_⟩
  · -- the directory that is listed is the one that was found at the beginning
    apply evolved.includes.locate_eq _ archive.located
    simp [evolved.includes.directory _ archive.isDirectory]
  · exact evolved.without (List.forall_mem_map.2 notDirectory)
  · intro other
    rw [archive.nodeAt?_without]
    rfl

/-- Where there is nothing among the backups, the path of a backup leads to nothing. -/
theorem isPresent_backup_eq_false {name : String} (evolved : Evolved before after)
    (grounded : before.Grounded before.workingPlace) (isName : Path.IsName name)
    (located : before.locate true output.backups = .ok directory)
    (gone : after.nodeAt? (directory ++ [name]) = none) :
    after.isPresent (output.backups.child name) = false := by
  rw [Bool.eq_false_iff]
  intro present
  rcases FileSystem.isPresent_iff.1 present with ⟨entry, found⟩
  rcases FileSystem.find_eq_ok_iff.1 found with ⟨place, reached, entry⟩
  rcases exists_of_locate_backup evolved grounded isName reached with
    ⟨again, left, relocated, -, final⟩
  cases located.symm.trans relocated
  rw [FileSystem.walk_last isName (by simp [gone])] at final
  cases final
  rw [FileSystem.nodeAt?_of_entryAt? entry] at gone
  cases gone

end

/-! ## The backup of a build -/

/-- The files once the output has been opened. -/
def afterOpening (output : Output) (before : FileSystem) : FileSystem :=
  (perform (prepare output.path) before).2

/--
A backup of the output as it was at the beginning.  The paths of the output and of
the backups are followed once the output has been opened, which adds directories
only.
-/
structure Taken (output : Output) (before : FileSystem) (now : Timestamp) where
  name : String
  text : String
  /-- Where the output is. -/
  place : Place
  /-- Where the directory of the backups is. -/
  directory : Place
  named : output.path.name? = some name
  reached : (output.afterOpening before).locate true output.path = .ok place
  original : before.nodeAt? place = some (.file text.toUTF8)
  located : (output.afterOpening before).locate true output.backups = .ok directory
  isDirectory : (output.afterOpening before).nodeAt? directory = some .directory

namespace Taken

variable {output : Output} {before : FileSystem} {now : Timestamp}

def backup (taken : output.Taken before now) : Backup :=
  ⟨now, Backup.nameAt taken.name now⟩

def path (taken : output.Taken before now) : Path :=
  output.backups.child taken.backup.name

/-- The other backups that stand before this one in the list. -/
def ahead (taken : output.Taken before now) : List Backup :=
  (listed taken.name (output.afterOpening before) taken.directory).filter
    (·.precedes taken.backup)

/-- The backup is there and holds the text; its path leads there if its directory is found. -/
structure Survives (taken : output.Taken before now) (after : FileSystem) : Prop where
  node : after.nodeAt? (taken.directory ++ [taken.backup.name]) =
    some (.file taken.text.toUTF8)
  read : after.locate true output.backups = .ok taken.directory →
    after.readText taken.path = .ok taken.text

/-- The text is what could be read of the output at the beginning. -/
theorem text_eq (taken : output.Taken before now) {text : String}
    (read : before.readText output.path = .ok text) : taken.text = text := by
  have extended : (output.afterOpening before).Extends before := extends_prepare output.path before
  rcases FileSystem.readContent_eq_ok_iff.1 (FileSystem.readText_eq_ok_iff.1 read) with
    ⟨place, located, file⟩
  have still : (output.afterOpening before).locate true output.path = .ok place := by
    apply extended.includes.locate_eq _ located
    simp [extended.kept_node file]
  cases taken.reached.symm.trans still
  rw [taken.original, Option.some.injEq, Node.file.injEq] at file
  have decoded := congrArg String.fromUTF8? file
  rw [FileSystem.fromUTF8?_toUTF8, FileSystem.fromUTF8?_toUTF8] at decoded
  exact Option.some.inj decoded

/-- What else is written does not change how many backups stand before this one. -/
theorem length_ahead (taken : output.Taken before now) (valid : now.isValid = true)
    {files : FileSystem}
    (same : ∀ name, name ≠ taken.backup.name → name ≠ taken.name →
      files.nodeAt? (taken.directory ++ [name]) =
        (output.afterOpening before).nodeAt? (taken.directory ++ [name])) :
    ((listed taken.name files taken.directory).filter (·.precedes taken.backup)).length =
      taken.ahead.length := by
  apply List.Perm.length_eq
  rw [ahead, List.perm_ext_iff_of_nodup ((nodup_listed _ _ _).filter _)
    ((nodup_listed _ _ _).filter _)]
  intro backup
  simp only [List.mem_filter, mem_listed, and_congr_left_iff, and_congr_right_iff]
  intro precedes found
  rw [same]
  · intro own
    have mine : Backup.ofName? Timestamp.ofText? taken.name taken.backup.name =
        some taken.backup := Backup.ofName?_nameAt taken.name valid
    rw [own, mine, Option.some.injEq] at found
    simp [Backup.precedes, found] at precedes
  · exact Backup.name_ne_of_ofName? found

/-- The backup has been written, and in its directory nothing else but the output. -/
structure IsWritten (taken : output.Taken before now) (files : FileSystem) : Prop where
  evolved : Evolved (output.afterOpening before) files
  node : files.nodeAt? (taken.directory ++ [taken.backup.name]) =
    some (.file taken.text.toUTF8)
  same : ∀ name, name ≠ taken.backup.name → name ≠ taken.name →
    files.nodeAt? (taken.directory ++ [name]) =
      (output.afterOpening before).nodeAt? (taken.directory ++ [name])

/--
Pruning removes the backup exactly if as many backups stand before it as are kept.
-/
theorem survives_iff (taken : output.Taken before now) (valid : now.isValid = true)
    (grounded : (output.afterOpening before).Grounded (output.afterOpening before).workingPlace)
    {files after : FileSystem} {keep count : Nat}
    (written : taken.IsWritten files)
    (pruned : perform (output.prune keep) files = (.ok count, after)) :
    (taken.ahead.length < keep → taken.Survives after) ∧
      (keep ≤ taken.ahead.length → after.isPresent taken.path = false) := by
  rcases written with ⟨evolved, there, same⟩
  rcases perform_prune_eq_ok evolved pruned with
    ⟨name, directory, named, located, last, nodes⟩
  cases taken.named.symm.trans named
  cases taken.located.symm.trans located
  have among : taken.backup ∈ listed taken.name files taken.directory :=
    mem_listed.2 ⟨Backup.ofName?_nameAt taken.name valid, by simp [there]⟩
  have iff : taken.backup.name ∈
      ((listed taken.name files taken.directory).drop keep).map Backup.name ↔
        keep ≤ taken.ahead.length := by
    rw [← taken.length_ahead valid same, ← Backup.mem_drop_iff (pairwise_listed _ _ _)
      (nodup_listed _ _ _) among, List.mem_map]
    constructor
    · rintro ⟨backup, removed, own⟩
      exact eq_of_name (List.mem_of_mem_drop removed) among own ▸ removed
    · exact fun removed => ⟨_, removed, rfl⟩
  have node := nodes taken.backup.name
  constructor
  · intro few
    rw [if_neg (iff.not.2 (Nat.not_le.2 few)), there] at node
    refine ⟨node, ?_⟩
    intro again
    exact readText_backup taken.named again (last.directory _ taken.isDirectory) node
  · intro many
    rw [if_pos (iff.2 many)] at node
    exact isPresent_backup_eq_false last grounded (isName_nameAt taken.named now) taken.located
      node

end Taken

/-- What a transaction that begins with a backup and the put of its commit leave. -/
theorem exists_taken_of_start {output : Output} {before started : FileSystem} {now : Timestamp}
    {transaction : Transaction} {backup : Path} {place : Place} {content : ByteArray}
    (grounded : (output.afterOpening before).Grounded (output.afterOpening before).workingPlace)
    (unlinked : output.Unlinked (output.afterOpening before) now)
    (starts : perform (Transaction.start output now) (output.afterOpening before) =
      (.ok transaction, started))
    (reported : transaction.backup? = some backup)
    (found : started.slot? output.path = some place)
    (other : started.nodeAt? place ≠ some .directory) (mark : Bool) :
    ∃ taken : output.Taken before now, backup = taken.path ∧
      taken.IsWritten (started.put place { node := .file content, isReadOnly := mark }) := by
  rcases Transaction.perform_start_eq_ok starts with
    ⟨-, -, rfl⟩ | ⟨text, name, named, read, written, rfl⟩
  · cases reported
  cases reported
  rcases FileSystem.readContent_eq_ok_iff.1 (FileSystem.readText_eq_ok_iff.1 read) with
    ⟨source, reached, file⟩
  have original : before.nodeAt? source = some (.file text.toUTF8) :=
    (extends_prepare output.path before).node_iff (by simp) |>.1 file
  rcases FileSystem.write_eq_ok written with ⟨copy, copyMark, copied, ends, -, rfl⟩
  have isName := isName_nameAt named now
  rcases exists_of_locate_backup (Evolved.refl _) grounded isName copied with
    ⟨directory, left, located, isDirectory, -⟩
  rcases place_of_backup (Evolved.refl _) grounded named unlinked copied with
    ⟨again, relocated, rfl⟩
  cases located.symm.trans relocated
  refine ⟨⟨name, text, source, directory, named, reached, original, located, isDirectory⟩, rfl,
    ?_, ?_, ?_⟩
  · exact ((Evolved.refl _).put ends.ne_directory _ copyMark).put other content mark
  · have apart := FileSystem.ne_of_slot? found named (Backup.nameAt_ne name now) directory
    exact (FileSystem.nodeAt?_put_of_ne apart).trans (FileSystem.nodeAt?_put_self (by simp))
  · intro name' notBackup notOutput
    have apart := FileSystem.ne_of_slot? found named notOutput directory
    have other : directory ++ [name'] ≠ directory ++ [Backup.nameAt name now] :=
      fun same => notBackup (List.singleton_inj.1 (List.append_cancel_left same))
    exact (FileSystem.nodeAt?_put_of_ne apart).trans (FileSystem.nodeAt?_put_of_ne other)

end Output

namespace BuildRequest

open Output

variable {request : BuildRequest} {environment : Environment} {now : Timestamp}
  {before after : FileSystem} {summary : BuildSummary} {backup : Path}

/-- A build that reports a backup has taken it, and has written nothing else but the output. -/
theorem Stages.exists_taken (stages : request.Stages environment now before after summary)
    (grounded : ((request.target environment stages.spec).afterOpening before).Grounded
      ((request.target environment stages.spec).afterOpening before).workingPlace)
    (unlinked : (request.target environment stages.spec).Unlinked
      ((request.target environment stages.spec).afterOpening before) now)
    (reported : summary.backup? = some backup) :
    ∃ taken : (request.target environment stages.spec).Taken before now, backup = taken.path ∧
      taken.IsWritten stages.written := by
  have opened : stages.opened = (request.target environment stages.spec).afterOpening before :=
    (congrArg Prod.snd stages.opens).symm
  have starts := stages.starts
  rw [opened, BuildRequest.transaction] at starts
  rw [stages.backup_eq] at reported
  split at starts
  case isFalse =>
    rw [Transaction.startWithoutBackup, perform_bind, perform_isPresent] at starts
    simp only [perform_pure, Prod.mk.injEq, Except.ok.injEq] at starts
    rw [← starts.1] at reported
    cases reported
  case isTrue =>
    rcases stages.exists_put with ⟨-, place, mark, found, other, same⟩
    rw [same]
    exact exists_taken_of_start grounded unlinked starts reported found other mark

/--
The backup that a build reports holds the text that the output had before, if
fewer backups come before it in the list than are kept; otherwise it is gone.
-/
theorem reported_backup_survives_iff
    (performed : perform (request.run environment now) before = (.ok summary, after))
    (valid : now.isValid = true) (grounded : before.Grounded before.workingPlace)
    (unlinked : ∀ spec, perform (Spec.load request.spec) before = (.ok spec, before) →
      (request.target environment spec).Unlinked
        ((request.target environment spec).afterOpening before) now)
    (reported : summary.backup? = some backup) :
    ∃ spec, perform (Spec.load request.spec) before = (.ok spec, before) ∧
      ∃ taken : (request.target environment spec).Taken before now, backup = taken.path ∧
        (∀ text, before.readText (request.target environment spec).path = .ok text →
          taken.text = text) ∧
        (taken.ahead.length < spec.keepBackups → taken.Survives after) ∧
        (spec.keepBackups ≤ taken.ahead.length → after.isPresent backup = false) := by
  rcases exists_stages performed with ⟨stages⟩
  have still : ((request.target environment stages.spec).afterOpening before).Extends before :=
    extends_prepare _ before
  have groundedNow : ((request.target environment stages.spec).afterOpening before).Grounded
      ((request.target environment stages.spec).afterOpening before).workingPlace := by
    intro above within
    exact still.kept_node (grounded above (still.workingPlace ▸ within))
  rcases stages.exists_taken groundedNow (unlinked _ stages.loaded) reported with
    ⟨taken, rfl, written⟩
  refine ⟨stages.spec, stages.loaded, taken, rfl, fun _ => taken.text_eq, ?_⟩
  exact taken.survives_iff valid groundedNow written stages.prunes

end BuildRequest

/-! ## A build that keeps its backup -/

namespace Sample

/-- The build of `build`, with a backup of the older output. -/
def backedBuild : BuildRequest :=
  { build with takesBackup := true }

/-- The files once the backup is taken. -/
def saved : FileSystem :=
  opened.put ["backups", backupName] { node := .file "old".toUTF8 }

theorem start_old {files : FileSystem} (home : files.workingPlace = [])
    (file : files.nodeAt? ["out.json"] = some (.file "old".toUTF8))
    (isDirectory : files.nodeAt? ["backups"] = some .directory)
    (vacant : files.entryAt? ["backups", backupName] = none) :
    perform (Transaction.start archived archiveTime) files =
      (.ok begun, files.put ["backups", backupName] { node := .file "old".toUTF8 }) := by
  apply Transaction.perform_start_eq name_archived (readText_archived home file)
    (locate_backups home isDirectory) isDirectory
  intro entry found
  cases vacant.symm.trans found

theorem start_opened :
    perform (Transaction.start archived archiveTime) opened = (.ok begun, saved) := by
  apply start_old rfl rfl rfl
  simp [FileSystem.entryAt?, opened, folder, FileSystem.put]

theorem run_backedBuild :
    ∃ summary after, perform (backedBuild.run ⟨[]⟩ archiveTime) folder = (.ok summary, after) ∧
      summary.backup? = some (archived.backups.child backupName) := by
  have sound : emptyDocument.errors = [] := by decide +kernel
  have replaced (content : ByteArray) :
      saved.replace archived.path content =
        .ok (saved.put ["out.json"] { node := .file content }) :=
    FileSystem.replace_of_file (slot?_archived rfl) rfl content
  have names (content : ByteArray) :
      (saved.put ["out.json"] { node := .file content }).names archived.backups =
        .ok [backupName] :=
    names_backups rfl rfl
  have pruned (content : ByteArray) := Output.perform_prune_of_few name_archived (names content)
    (show [backupName].length ≤ 10 by decide)
  have prepared : perform (Output.prepare (.ofText "out.json")) folder =
      (.ok archived, opened) := perform_prepare_folder
  simp only [BuildRequest.run, backedBuild, build, perform_bind, perform_load_folder,
    Spec.compiled, emptyDocument_eq, Except.mapError, perform_ofExcept, outputPath_build,
    prepared, BuildRequest.transaction, if_true, start_opened, Transaction.commitDocument,
    sound, Transaction.commit, begun, Bool.false_eq_true, if_false, Output.replace,
    perform_change, replaced, perform_pure, Spec.keepBackups, Option.getD_none,
    Spec.defaultKeepBackups, pruned]
  exact ⟨_, _, rfl, rfl⟩

theorem grounded_folder : folder.Grounded folder.workingPlace :=
  folder.grounded_root

/-- The backup of the build is there, and nothing stands before it. -/
theorem backedBuild_keeps_backup :
    archiveTime.isValid = true ∧ folder.Grounded folder.workingPlace ∧
      archived.Unlinked (archived.afterOpening folder) archiveTime ∧
      ∃ summary after,
        perform (backedBuild.run ⟨[]⟩ archiveTime) folder = (.ok summary, after) ∧
          summary.backup? = some (archived.backups.child backupName) ∧
            ∃ directory, after.nodeAt? (directory ++ [backupName]) =
              some (.file "old".toUTF8) := by
  have valid : archiveTime.isValid = true := by decide
  have opens : archived.afterOpening folder = opened := congrArg Prod.snd perform_prepare_folder
  have located : opened.locate true archived.backups = .ok ["backups"] := locate_backups rfl rfl
  have unlinked : archived.Unlinked (archived.afterOpening folder) archiveTime := by
    intro name directory target named reached _ link
    rw [opens] at reached link
    cases located.symm.trans reached
    cases name_archived.symm.trans named
    have vacant : opened.nodeAt? ["backups", backupName] = none := by
      simp [FileSystem.nodeAt?, FileSystem.entryAt?, opened, folder, FileSystem.put]
    cases vacant.symm.trans link
  rcases run_backedBuild with ⟨summary, after, performed, reported⟩
  refine ⟨valid, grounded_folder, unlinked, summary, after, performed, reported, ?_⟩
  have loads (spec : Spec)
      (loaded : perform (Spec.load backedBuild.spec) folder = (.ok spec, folder)) :
      spec = {} ∧ backedBuild.target ⟨[]⟩ spec = archived := by
    cases perform_load_folder.symm.trans loaded
    refine ⟨rfl, ?_⟩
    rw [BuildRequest.target, backedBuild, build, outputPath_build, archived]
  rcases BuildRequest.reported_backup_survives_iff performed valid grounded_folder
      (fun spec loaded => (loads spec loaded).2 ▸ unlinked) reported with
    ⟨spec, loaded, found⟩
  rcases loads spec loaded with ⟨rfl, target⟩
  rw [target] at found
  rcases found with ⟨taken, -, text, survives, -⟩
  have directory : taken.directory = ["backups"] := by
    have reached := taken.located
    rw [opens, located] at reached
    exact (Except.ok.inj reached).symm
  have none : opened.namesAt ["backups"] = [] := rfl
  have ahead : taken.ahead = [] := by
    simp [Output.Taken.ahead, Output.listed, opens, directory, none, Backup.among]
  have node := (survives (by rw [ahead]; decide)).node
  rw [text "old" (readText_archived rfl rfl)] at node
  have name : taken.backup.name = backupName := by
    have own : "out.json" = taken.name := Option.some.inj (name_archived.symm.trans taken.named)
    rw [Output.Taken.backup, ← own, backupName]
  exact ⟨taken.directory, name ▸ node⟩

/-! ## A backup that stands behind another one -/

def crowdedText : String :=
  "[output]\nkeep_backups = 1\n"

def crowdedSpec : Spec where
  output := { keepBackups := some 1 }

/-- A moment that the clock has not reached yet. -/
def laterTime : Timestamp := ⟨2998, 1, 1, 0, 0, 0⟩

def laterName : String :=
  Backup.nameAt "out.json" laterTime

/-- There is a backup with a later moment in its name, and one backup is to be kept. -/
def crowded : FileSystem where
  entries :=
    [(["spec.toml"], { node := .file crowdedText.toUTF8 }),
      (["out.json"], { node := .file "old".toUTF8 }), (["backups"], { node := .directory }),
      (["backups", laterName], { node := .file "later".toUTF8 })]

theorem perform_load_crowded :
    perform (Spec.load (.ofText "spec.toml")) crowded = (.ok crowdedSpec, crowded) := by
  have read : Toml.statements? crowdedText.toList =
      some [.header ["output"], .assign ["keep_backups"] (.int 1)] := by with_unfolding_all rfl
  exact perform_load_spec rfl rfl read (by decide) rfl

theorem document_crowded : crowdedSpec.document = .ok emptyDocument := by decide +kernel

/-- The files once the backup is taken. -/
def crowdedSaved : FileSystem :=
  crowded.put ["backups", backupName] { node := .file "old".toUTF8 }

theorem laterName_ne_backupName : laterName ≠ backupName := by
  intro same
  have texts := Backup.text_of_nameAt same
  revert texts
  decide +kernel

theorem start_crowded :
    perform (Transaction.start archived archiveTime) crowded = (.ok begun, crowdedSaved) := by
  apply start_old rfl rfl rfl
  simp [FileSystem.entryAt?, crowded, laterName_ne_backupName]

/-- Of both backups the one with the later moment stands first. -/
theorem among_crowded :
    Backup.among Timestamp.ofText? "out.json" [laterName, backupName] =
      [⟨laterTime, laterName⟩, ⟨archiveTime, backupName⟩] := by
  have later : Backup.ofName? Timestamp.ofText? "out.json" laterName =
      some ⟨laterTime, laterName⟩ := Backup.ofName?_nameAt "out.json" (by decide)
  have own : Backup.ofName? Timestamp.ofText? "out.json" backupName =
      some ⟨archiveTime, backupName⟩ := Backup.ofName?_nameAt "out.json" (by decide)
  have before : (⟨laterTime, laterName⟩ : Backup).isBefore ⟨archiveTime, backupName⟩ = true := by
    rfl
  apply Backup.among_eq_of_pairwise
  · simp only [List.filterMap_cons_some later, List.filterMap_cons_some own, List.filterMap_nil]
    exact .refl _
  · simp [before]

/-- The files once the output is written. -/
def crowdedWritten (content : ByteArray) : FileSystem :=
  crowdedSaved.put ["out.json"] { node := .file content }

theorem namesAt_crowdedWritten (content : ByteArray) :
    (crowdedWritten content).namesAt ["backups"] = [laterName, backupName] := by
  simp [FileSystem.namesAt, FileSystem.put, crowdedWritten, crowdedSaved, crowded,
    laterName_ne_backupName]

/-- The backup can be removed, and is gone then. -/
theorem remove_crowdedWritten (content : ByteArray) :
    ∃ after, (crowdedWritten content).remove (archived.backups.child backupName) = .ok after ∧
      after.isPresent (archived.backups.child backupName) = false := by
  have there : (crowdedWritten content).nodeAt? ["backups", backupName] =
      some (.file "old".toUTF8) := by
    rw [crowdedWritten, FileSystem.nodeAt?_put_of_ne (by simp), crowdedSaved,
      FileSystem.nodeAt?_put_self (by simp)]
  have removed : (crowdedWritten content).remove (archived.backups.child backupName) =
      .ok ((crowdedWritten content).erase ["backups", backupName]) :=
    Output.remove_backup_eq (Output.isName_nameAt name_archived archiveTime)
      (locate_backups rfl rfl) rfl
      (fun none => nomatch there.symm.trans none) (fun other => nomatch there.symm.trans other)
  exact ⟨_, removed, Output.isPresent_of_remove (FileSystem.grounded_root _) removed⟩

/-- The build reports its backup, which it has pruned. -/
theorem crowded_build_prunes_backup :
    ∃ summary after, perform (backedBuild.run ⟨[]⟩ archiveTime) crowded = (.ok summary, after) ∧
      summary.backup? = some (archived.backups.child backupName) ∧
        after.isPresent (archived.backups.child backupName) = false := by
  have sound : emptyDocument.errors = [] := by decide +kernel
  have prepared : perform (Output.prepare (.ofText "out.json")) crowded =
      (.ok archived, crowded) :=
    Output.perform_prepare_of_directory (locate_backups rfl rfl) rfl
  have outputPath : Spec.outputPath crowdedSpec ⟨[]⟩ (some "out.json") = "out.json" := by
    decide +kernel
  have replaced (content : ByteArray) :
      crowdedSaved.replace archived.path content = .ok (crowdedWritten content) :=
    FileSystem.replace_of_file (slot?_archived rfl) rfl content
  have keeps : crowdedSpec.keepBackups = 1 := rfl
  have names (content : ByteArray) :
      (crowdedWritten content).names archived.backups = .ok [laterName, backupName] :=
    (names_backups rfl rfl).trans (congrArg Except.ok (namesAt_crowdedWritten content))
  choose erased removed gone using remove_crowdedWritten
  simp only [BuildRequest.run, backedBuild, build, perform_bind, perform_load_crowded,
    Spec.compiled, document_crowded, Except.mapError, perform_ofExcept, outputPath,
    prepared, BuildRequest.transaction, if_true, start_crowded, Transaction.commitDocument,
    sound, Transaction.commit, begun, Bool.false_eq_true, if_false, Output.replace,
    perform_change, replaced, perform_pure, keeps, Output.prune, Output.listBackups,
    Output.perform_name, name_archived, perform_look, names, among_crowded, List.map_cons,
    List.map_nil, List.drop_succ_cons, List.drop_zero, Output.removeAll, removed]
  exact ⟨_, _, rfl, rfl, gone _⟩

end Sample

end KeyLayers
