import KeyLayers.Proofs.FileSystem.Removal
import KeyLayers.Proofs.Output.Steps

/-!
# What pruning takes away

Pruning removes what stands behind the backups to keep, one after the other.  Each
removal takes one entry out of the directory of the backups and moves no directory, so
the next backup is looked for in the same place.  If one cannot be removed, the backups
before it are gone and nothing else is.

Entries may be links, and a path that leads over a backup leads nowhere once the backup
is gone.  This is why what is found at a path stays only if the path crosses no backup
that is removed (`Output.prune_exact`): the output may be a link to a backup, and the
path of the backups may lead over one of them.
-/

namespace KeyLayers

open FileTask

namespace Output

section

variable {output : Output} {before files after : FileSystem} {directory : Place}
  {name : String} {names : List String}

/-! ## One removal after the other -/

/-- A backup is removed from its place in the directory of the backups. -/
theorem remove_backup_eq_ok (evolved : Evolved before files)
    (isName : Path.IsName name) (located : before.locate true output.backups = .ok directory)
    (removed : files.remove (output.backups.child name) = .ok after) :
    files.nodeAt? (directory ++ [name]) ≠ some .directory ∧
      after = files.erase (directory ++ [name]) := by
  rcases FileSystem.remove_eq_ok removed with ⟨place, reached, other, -, rfl⟩
  rcases exists_way_of_locate_backup evolved.includes isName reached with
    ⟨above, left, way, -, last⟩
  rw [FileSystem.walk_last isName (by simp)] at last
  cases last
  rw [FileSystem.locate_eq_walk output.backups_ne_empty, way.walk_eq] at located
  cases located
  exact ⟨other, rfl⟩

/-- A backup that is no directory can be removed. -/
theorem remove_backup_eq (isName : Path.IsName name)
    (located : files.locate true output.backups = .ok directory)
    (isDirectory : files.nodeAt? directory = some .directory)
    (there : files.nodeAt? (directory ++ [name]) ≠ none)
    (other : files.nodeAt? (directory ++ [name]) ≠ some .directory) :
    files.remove (output.backups.child name) = .ok (files.erase (directory ++ [name])) := by
  have reached : files.locate false (output.backups.child name) =
      .ok (directory ++ [name]) :=
    FileSystem.locate_child_of_directory output.backups_ne_empty located isDirectory isName nofun
  rw [FileSystem.nodeAt?] at there other
  rw [FileSystem.remove, reached]
  simp only [bind, Except.bind]
  rcases node : (files.entryAt? (directory ++ [name])).map Entry.node with
    _ | (content | _ | target)
  · exact absurd node there
  · rfl
  · exact absurd node other
  · rfl

/-- Files are removed up to the first that cannot be removed. -/
theorem perform_removeAll {outcome : Except OutputError Nat}
    (isName : ∀ name ∈ names, Path.IsName name)
    (located : before.locate true output.backups = .ok directory)
    (evolved : Evolved before files)
    (performed : perform (removeAll (names.map output.backups.child)) files =
      (outcome, after)) :
    ∃ removed left, names = removed ++ left ∧
      after = files.without (removed.map fun name => directory ++ [name]) ∧
      (∀ name ∈ removed, files.nodeAt? (directory ++ [name]) ≠ some .directory) ∧
      (left = [] ∧ outcome = .ok removed.length ∨
        ∃ next rest fault, left = next :: rest ∧
          after.remove (output.backups.child next) = .error fault ∧
            outcome = .error (.files fault)) := by
  induction names generalizing files after outcome with
  | nil =>
      cases performed
      exact ⟨[], [], rfl, (FileSystem.without_nil _).symm, nofun, Or.inl ⟨rfl, rfl⟩⟩
  | cons first rest ih =>
      rw [List.map_cons, removeAll, perform_bind, perform_change] at performed
      cases erased : files.remove (output.backups.child first) with
      | error fault =>
          simp only [erased, Prod.mk.injEq] at performed
          rcases performed with ⟨rfl, rfl⟩
          exact ⟨[], first :: rest, rfl, (FileSystem.without_nil _).symm, nofun,
            Or.inr ⟨first, rest, fault, rfl, erased, rfl⟩⟩
      | ok middle =>
          simp only [erased] at performed
          rcases remove_backup_eq_ok evolved (isName first (.head _)) located erased with
            ⟨other, rfl⟩
          cases later : perform (removeAll (rest.map output.backups.child))
              (files.erase (directory ++ [first])) with
          | mk inner last =>
              rcases ih (fun name later => isName name (.tail _ later)) (evolved.erase other)
                later with ⟨removed, left, rfl, rfl, others, ended⟩
              have notDirectory : ∀ name ∈ first :: removed,
                  files.nodeAt? (directory ++ [name]) ≠ some .directory := by
                intro name member
                by_cases same : name = first
                · exact same ▸ other
                · have still := others name ((List.mem_cons.1 member).resolve_left same)
                  rwa [FileSystem.nodeAt?_erase_of_ne (by simpa using same)] at still
              rw [perform_bind, later] at performed
              refine ⟨first :: removed, left, rfl, ?_⟩
              rw [List.map_cons, FileSystem.without_cons]
              rcases ended with ⟨none, rfl⟩ | ⟨next, more, fault, split, stuck, rfl⟩
              · cases performed
                exact ⟨rfl, notDirectory, Or.inl ⟨none, rfl⟩⟩
              · cases performed
                exact ⟨rfl, notDirectory, Or.inr ⟨next, more, fault, split, stuck, rfl⟩⟩

end

/-- What is no directory may be taken away in any number. -/
theorem Evolved.without {places : List Place} (evolved : Evolved before files)
    (other : ∀ place ∈ places, files.nodeAt? place ≠ some .directory) :
    Evolved before (files.without places) where
  includes := evolved.includes.trans (files.includes_without places)
  directory place found := by
    have still := evolved.directory place found
    rw [FileSystem.nodeAt?_without_of_not_mem, still]
    exact fun gone => other place gone still

/-! ## The backups that are left -/

namespace Archive

section

variable {output : Output} {files after : FileSystem}

/-- Some backups are gone, and all else is there. -/
structure Leaves (archive : output.Archive files) (removed : List Backup)
    (after : FileSystem) : Prop where
  gone : ∀ backup ∈ removed, after.entryAt? (archive.place backup) = none
  kept : ∀ place, place ∉ removed.map archive.place →
    after.entryAt? place = files.entryAt? place
  /-- The entry of the output is there in any case, be it a file or a link. -/
  slot : ∀ place, files.slot? output.path = some place →
    after.entryAt? place = files.entryAt? place
  /-- What a path leads to is there, unless it is a backup that is gone or behind one. -/
  found : ∀ path entry, ¬ files.Crosses (removed.map archive.place) path →
    (∀ backup ∈ removed, files.locate true path ≠ .ok (archive.place backup)) →
      (after.find path = .ok entry ↔ files.find path = .ok entry)

variable {archive : output.Archive files} {backup : Backup} {removed : List Backup}

theorem leaves_without (among : ∀ backup ∈ removed, backup ∈ archive.backups)
    (other : ∀ backup ∈ removed, files.nodeAt? (archive.place backup) ≠ some .directory) :
    archive.Leaves removed (files.without (removed.map archive.place)) where
  gone backup member := by
    rw [FileSystem.entryAt?_without (by simp [place]), if_pos (List.mem_map_of_mem member)]
  kept place stays := FileSystem.entryAt?_without_of_not_mem stays
  slot place found := by
    apply FileSystem.entryAt?_without_of_not_mem
    intro gone
    rcases List.mem_map.1 gone with ⟨backup, member, same⟩
    exact FileSystem.ne_of_slot? found archive.named (name_ne (among backup member)) _ same
  found path entry stays elsewhere :=
    FileSystem.find_without_iff (List.forall_mem_map.2 other) stays
      (List.forall_mem_map.2 elsewhere)

/-- A backup to keep is none of those behind. -/
theorem name_not_mem_of_mem_take {keep : Nat} (member : backup ∈ archive.backups.take keep) :
    backup.name ∉ (archive.backups.drop keep).map Backup.name := by
  intro gone
  rcases List.mem_map.1 gone with ⟨other, behind, same⟩
  have own := eq_of_name (List.mem_of_mem_drop behind) (List.mem_of_mem_take member) same
  have apart : (archive.backups.take keep).Disjoint (archive.backups.drop keep) :=
    List.disjoint_take_drop (nodup_listed _ _ _) (Nat.le_refl keep)
  exact apart member (own ▸ behind)

/-- In the directory of the backups, nothing but what has been removed is gone. -/
theorem nodeAt?_without (archive : output.Archive files) (removed : List Backup)
    (name : String) :
    (files.without (removed.map archive.place)).nodeAt? (archive.directory ++ [name]) =
      if name ∈ removed.map Backup.name then none
      else files.nodeAt? (archive.directory ++ [name]) := by
  have places : archive.directory ++ [name] ∈ removed.map archive.place ↔
      name ∈ removed.map Backup.name := by
    simp [place]
  split
  case isTrue gone => exact FileSystem.nodeAt?_without_of_mem (by simp) (places.2 gone)
  case isFalse stays => exact FileSystem.nodeAt?_without_of_not_mem (places.not.2 stays)

/-- The backups to keep stay in the list, in their order. -/
theorem listed_without (archive : output.Archive files) (keep : Nat) :
    listed archive.name
        (files.without ((archive.backups.drop keep).map archive.place)) archive.directory =
      archive.backups.take keep := by
  have members (backup : Backup) :
      backup ∈ listed archive.name
          (files.without ((archive.backups.drop keep).map archive.place)) archive.directory ↔
        backup ∈ archive.backups.take keep := by
    rw [mem_listed, archive.nodeAt?_without]
    constructor
    · rintro ⟨found, there⟩
      rw [ne_eq, ite_eq_left_iff, Classical.not_imp] at there
      have member : backup ∈ archive.backups := mem_listed.2 ⟨found, there.2⟩
      rw [← List.take_append_drop keep archive.backups, List.mem_append] at member
      exact member.resolve_right fun behind => there.1 (List.mem_map_of_mem behind)
    · intro kept
      rcases mem_listed.1 (List.mem_of_mem_take kept) with ⟨found, there⟩
      rw [if_neg (name_not_mem_of_mem_take kept)]
      exact ⟨found, there⟩
  have perm := (List.perm_ext_iff_of_nodup (nodup_listed _ _ _)
    ((nodup_listed _ _ _).sublist (List.take_sublist keep archive.backups))).2 members
  exact perm.eq_of_pairwise (fun left right _ _ => Backup.eq_of_isBefore)
    (pairwise_listed _ _ _) ((pairwise_listed _ _ _).sublist (List.take_sublist keep _))

/-- The directory of the backups is where it was if no backup on the way to it is gone. -/
theorem exists_archive_without
    (other : ∀ backup ∈ removed, files.nodeAt? (archive.place backup) ≠ some .directory)
    (stays : ¬ files.Crosses (removed.map archive.place) output.backups) :
    ∃ again : output.Archive (files.without (removed.map archive.place)),
      again.name = archive.name ∧ again.directory = archive.directory := by
  have notDirectory : ∀ place ∈ removed.map archive.place,
      files.nodeAt? place ≠ some .directory := List.forall_mem_map.2 other
  refine ⟨⟨archive.name, archive.directory, archive.named, ?_, ?_⟩, rfl, rfl⟩
  · rw [FileSystem.locate_without_iff notDirectory stays]
    exact archive.located
  · rw [FileSystem.nodeAt?_without_of_not_mem]
    · exact archive.isDirectory
    · exact fun gone => notDirectory _ gone archive.isDirectory

theorem perform_listBackups_without (archive : output.Archive files) {keep : Nat}
    (other : ∀ backup ∈ archive.backups.drop keep,
      files.nodeAt? (archive.place backup) ≠ some .directory)
    (stays : ¬ files.Crosses ((archive.backups.drop keep).map archive.place) output.backups) :
    perform output.listBackups
        (files.without ((archive.backups.drop keep).map archive.place)) =
      (.ok ((archive.backups.take keep).map archive.path),
        files.without ((archive.backups.drop keep).map archive.place)) := by
  rcases exists_archive_without other stays with ⟨again, name_eq, directory_eq⟩
  have kept : again.backups = archive.backups.take keep := by
    rw [← archive.listed_without keep, ← name_eq, ← directory_eq]
    rfl
  rw [again.perform_listBackups, kept]
  rfl

/-- Pruning the backups of an archive takes away backups from behind those to keep. -/
theorem perform_prune (archive : output.Archive files) {keep : Nat}
    {outcome : Except OutputError Nat}
    (performed : perform (output.prune keep) files = (outcome, after)) :
    ∃ removed left, archive.backups.drop keep = removed ++ left ∧
      after = files.without (removed.map archive.place) ∧
      (∀ backup ∈ removed, files.nodeAt? (archive.place backup) ≠ some .directory) ∧
      (left = [] ∧ outcome = .ok removed.length ∨
        ∃ next rest fault, left = next :: rest ∧
          after.remove (archive.path next) = .error fault ∧
            outcome = .error (.files fault)) := by
  have paths : (archive.backups.map archive.path).drop keep =
      ((archive.backups.drop keep).map Backup.name).map output.backups.child := by
    rw [← List.map_drop, List.map_map]
    rfl
  rw [prune, perform_bind, archive.perform_listBackups] at performed
  simp only [paths] at performed
  have isName : ∀ name ∈ (archive.backups.drop keep).map Backup.name, Path.IsName name := by
    intro name member
    rcases List.mem_map.1 member with ⟨backup, behind, rfl⟩
    exact isName (List.mem_of_mem_drop behind)
  rcases perform_removeAll isName archive.located (Evolved.refl files) performed with
    ⟨removed, left, names, same, others, ended⟩
  rcases List.map_eq_append_iff.1 names with ⟨removed, left, split, rfl, rfl⟩
  refine ⟨removed, left, split, ?_, ?_, ?_⟩
  · rw [same, List.map_map]
    rfl
  · exact fun backup member => others _ (List.mem_map_of_mem member)
  · rcases ended with ⟨none, rfl⟩ | ⟨next, rest, fault, more, stuck, rfl⟩
    · exact Or.inl ⟨List.map_eq_nil_iff.1 none, by rw [List.length_map]⟩
    · rcases List.map_eq_cons_iff.1 more with ⟨next, rest, rfl, rfl, rfl⟩
      exact Or.inr ⟨next, rest, fault, rfl, stuck, rfl⟩

end

end Archive

/--
Pruning removes backups from behind the ones to keep, and changes nothing else: all of
them and counts them, or as many as stand before one that cannot be removed.  Once all are
gone, those to keep are what is listed, and there is nothing left to prune.
-/
theorem prune_exact (output : Output) (keep : Nat) (files after : FileSystem)
    (outcome : Except OutputError Nat)
    (performed : perform (output.prune keep) files = (outcome, after)) :
    (∃ error, perform output.listBackups files = (.error error, files) ∧
      outcome = .error error ∧ after = files) ∨
    ∃ archive : output.Archive files,
      perform output.listBackups files = (.ok (archive.backups.map archive.path), files) ∧
      ∃ removed, archive.Leaves removed after ∧
        (∀ backup ∈ archive.backups.take keep,
          after.entryAt? (archive.place backup) = files.entryAt? (archive.place backup)) ∧
        ((removed = archive.backups.drop keep ∧
            outcome = .ok (archive.backups.length - keep) ∧
            (¬ files.Crosses (removed.map archive.place) output.backups →
              perform output.listBackups after =
                  (.ok ((archive.backups.take keep).map archive.path), after) ∧
                perform (output.prune keep) after = (.ok 0, after))) ∨
          ∃ next rest fault, archive.backups.drop keep = removed ++ next :: rest ∧
            after.remove (archive.path next) = .error fault ∧
              outcome = .error (.files fault)) := by
  cases list : perform output.listBackups files with
  | mk result same =>
      have unchanged : same = files := by
        have kept := keeps_listBackups output (· = files) files rfl
        rwa [list] at kept
      subst unchanged
      cases result with
      | error error =>
          rw [prune, perform_bind, list] at performed
          cases performed
          exact Or.inl ⟨error, rfl, rfl, rfl⟩
      | ok paths =>
          rcases perform_listBackups_eq_ok.1 list with ⟨-, archive, rfl⟩
          rcases archive.perform_prune performed with ⟨removed, left, split, rfl, other, ended⟩
          have behind : ∀ backup ∈ removed, backup ∈ archive.backups.drop keep :=
            fun backup member => split ▸ List.mem_append_left left member
          refine Or.inr ⟨archive, rfl, removed,
            Archive.leaves_without
              (fun backup member => List.mem_of_mem_drop (behind backup member)) other, ?_, ?_⟩
          · intro backup kept
            apply FileSystem.entryAt?_without_of_not_mem
            intro gone
            rcases List.mem_map.1 gone with ⟨other, member, same⟩
            have names := List.singleton_inj.1 (List.append_cancel_left same)
            exact Archive.name_not_mem_of_mem_take kept
              (names ▸ List.mem_map_of_mem (behind other member))
          · rcases ended with ⟨rfl, rfl⟩ | ⟨next, rest, fault, rfl, stuck, rfl⟩
            · rw [List.append_nil] at split
              subst split
              refine Or.inl ⟨rfl, by rw [List.length_drop], fun stays => ?_⟩
              have rest := archive.perform_listBackups_without other stays
              refine ⟨rest, ?_⟩
              rw [prune, perform_bind, rest]
              simp only [List.map_take, List.drop_take_self, removeAll, perform_pure]
            · exact Or.inr ⟨next, rest, fault, split, stuck, rfl⟩

end Output

/-! ## Pruning the mixed directory -/

namespace Sample

theorem perform_listBackups_mixed :
    perform archived.listBackups mixed =
      (.ok (["out.json.2024-2-29_120000", "out.json.2024-02-29_120000",
        "out.json.2023-12-31_235959"].map archived.backups.child), mixed) :=
  Output.perform_listBackupsBy_eq name_archived names_mixed among_mixed

/-- The mixed directory without the oldest backup. -/
def mixedPruned : FileSystem :=
  mixed.erase ["backups", "out.json.2023-12-31_235959"]

theorem perform_prune_mixed :
    perform (archived.prune 2) mixed = (.ok 1, mixedPruned) := by
  have located : mixed.locate true archived.backups = .ok ["backups"] := locate_backups rfl rfl
  have isDirectory : mixed.nodeAt? ["backups"] = some .directory := rfl
  have oldest : mixed.nodeAt? ["backups", "out.json.2023-12-31_235959"] =
      some (.file "oldest".toUTF8) := rfl
  have removed : mixed.remove (archived.backups.child "out.json.2023-12-31_235959") =
      .ok mixedPruned :=
    Output.remove_backup_eq ⟨by decide, by decide⟩ located isDirectory
      (by simp [oldest]) (by simp [oldest])
  simp only [Output.prune, perform_bind, perform_listBackups_mixed, List.map_cons, List.map_nil,
    List.drop_succ_cons, List.drop_zero, Output.removeAll, perform_change, removed, perform_pure]

theorem no_link_mixed (place : Place) (target : Path) :
    mixed.nodeAt? place ≠ some (.link target) := by
  intro link
  rw [FileSystem.nodeAt?, Option.map_eq_some_iff] at link
  rcases link with ⟨entry, found, link⟩
  by_cases root : place = []
  · rw [root, FileSystem.entryAt?, if_pos rfl] at found
    cases found
    cases link
  · have member := (FileSystem.entryAt?_eq_some_iff root).1 found
    have plain : ∀ item ∈ mixed.entries, ∀ target, item.2.node ≠ .link target := by
      simp [mixed]
    exact plain _ member target link

/-- Two backups are kept and listed, and pruning once more removes none. -/
theorem mixed_pruned :
    perform (archived.prune 2) mixed = (.ok 1, mixedPruned) ∧
      perform archived.listBackups mixedPruned =
        (.ok (["out.json.2024-2-29_120000", "out.json.2024-02-29_120000"].map
          archived.backups.child), mixedPruned) ∧
      perform (archived.prune 2) mixedPruned = (.ok 0, mixedPruned) := by
  refine ⟨perform_prune_mixed, ?_⟩
  rcases Output.prune_exact archived 2 mixed mixedPruned _ perform_prune_mixed with
    ⟨error, -, impossible, -⟩ | ⟨archive, list, removed, -, -, pruned⟩
  · cases impossible
  · rcases pruned with ⟨-, -, rest⟩ | ⟨next, others, fault, -, -, impossible⟩
    · have noLink : ¬ mixed.Crosses (removed.map archive.place) archived.backups :=
        FileSystem.not_crosses_of_no_link fun place _ => no_link_mixed place
      rw [perform_listBackups_mixed, Prod.mk.injEq, Except.ok.injEq] at list
      rw [List.map_take, ← list.1] at rest
      exact rest noLink
    · cases impossible

/-! ## Paths that lead over a backup -/

def pastName : String :=
  "out.json.2024-01-01_000000"

/-- The output is a link to its only backup. -/
def linkedBack : FileSystem where
  entries :=
    [(["out.json"], { node := .link ⟨["backups", pastName]⟩ }),
      (["backups"], { node := .directory }),
      (["backups", pastName], { node := .file "old".toUTF8 })]

/-- The path of the output leads over a backup that is a link to a directory. -/
def tangled : FileSystem where
  entries :=
    [(["out.json"], { node := .file "old".toUTF8 }), (["other"], { node := .directory }),
      (["backups"], { node := .directory }),
      (["backups", pastName], { node := .link ⟨["..", "other"]⟩ })]

def tangledOutput : Output :=
  ⟨⟨["backups", pastName, "..", "out.json"]⟩⟩

theorem among_past :
    (Backup.among Timestamp.ofText? "out.json" [pastName]).map Backup.name = [pastName] := by
  decide +kernel

/-- The only backup is removed. -/
theorem perform_prune_past {output : Output} {files : FileSystem} {node : Node}
    (named : output.path.name? = some "out.json")
    (located : files.locate true output.backups = .ok ["backups"])
    (isDirectory : files.nodeAt? ["backups"] = some .directory)
    (names : files.namesAt ["backups"] = [pastName])
    (there : files.nodeAt? ["backups", pastName] = some node) (other : node ≠ .directory) :
    perform (output.prune 0) files = (.ok 1, files.erase ["backups", pastName]) := by
  have found : files.names output.backups = .ok [pastName] :=
    FileSystem.names_eq_ok_iff.2 ⟨_, located, isDirectory, names.symm⟩
  have list : perform output.listBackups files =
      (.ok ([pastName].map output.backups.child), files) :=
    Output.perform_listBackupsBy_eq named found among_past
  have removed : files.remove (output.backups.child pastName) =
      .ok (files.erase ["backups", pastName]) :=
    Output.remove_backup_eq ⟨by decide, by decide⟩ located isDirectory (by simp [there])
      (by simp [there, other])
  simp only [Output.prune, perform_bind, list, List.map_cons, List.map_nil, List.drop_zero,
    Output.removeAll, perform_change, removed, perform_pure]

theorem node_linkedBack :
    linkedBack.nodeAt? ["backups", pastName] = some (.file "old".toUTF8) := rfl

theorem perform_prune_linkedBack :
    perform (archived.prune 0) linkedBack =
      (.ok 1, linkedBack.erase ["backups", pastName]) := by
  exact perform_prune_past name_archived (locate_backups rfl rfl) rfl rfl node_linkedBack
    (by simp)

theorem name_tangled : tangledOutput.path.name? = some "out.json" := by decide

theorem backups_tangled :
    tangledOutput.backups = ⟨["backups", pastName, "..", "backups"]⟩ := by decide

theorem perform_prune_tangled :
    perform (tangledOutput.prune 0) tangled = (.ok 1, tangled.erase ["backups", pastName]) := by
  have located : tangled.locate true tangledOutput.backups = .ok ["backups"] := by
    simp [backups_tangled, FileSystem.locate, FileSystem.walk, FileSystem.greatestLinks,
      FileSystem.entryAt?, tangled, Path.isIdle, Path.isAbsolute, Path.empty, pastName]
  have there : tangled.nodeAt? ["backups", pastName] = some (.link ⟨["..", "other"]⟩) := rfl
  exact perform_prune_past name_tangled located rfl rfl there (by simp)

/--
An output that is a link to a backup cannot be read once the backup is gone, and a list
of backups whose path leads over one of them cannot be made again.
-/
theorem pruning_breaks_paths :
    (∃ after, perform (archived.prune 0) linkedBack = (.ok 1, after) ∧
      linkedBack.readText archived.path = .ok "old" ∧
      after.readText archived.path = .error .notFound) ∧
    ∃ after, perform (tangledOutput.prune 0) tangled = (.ok 1, after) ∧
      perform tangledOutput.listBackups after = (.error (.files .notFound), after) := by
  have path : archived.path = ⟨["out.json"]⟩ := by decide
  have located : linkedBack.locate true archived.path = .ok ["backups", pastName] := by
    simp [path, FileSystem.locate, FileSystem.walk, FileSystem.greatestLinks,
      FileSystem.entryAt?, linkedBack, Path.isIdle, Path.isAbsolute, Path.empty, pastName]
  have read : linkedBack.readText archived.path = .ok "old" :=
    FileSystem.readText_eq_ok_iff.2
      (FileSystem.readContent_eq_ok_iff.2 ⟨_, located, node_linkedBack⟩)
  have gone : (linkedBack.erase ["backups", pastName]).readText archived.path =
      .error .notFound := by
    simp [path, FileSystem.readText, FileSystem.readContent, FileSystem.find,
      FileSystem.locate, FileSystem.walk, FileSystem.greatestLinks, FileSystem.erase,
      FileSystem.entryAt?, linkedBack, Path.isIdle, Path.isAbsolute, Path.empty, pastName,
      bind, Except.bind]
  have lost : (tangled.erase ["backups", pastName]).names tangledOutput.backups =
      .error .notFound := by
    simp [backups_tangled, FileSystem.names, FileSystem.locate, FileSystem.walk,
      FileSystem.greatestLinks, FileSystem.erase, FileSystem.entryAt?, tangled, Path.isIdle,
      Path.isAbsolute, Path.empty, pastName, bind, Except.bind]
  refine ⟨⟨_, perform_prune_linkedBack, read, gone⟩, _, perform_prune_tangled, ?_⟩
  rw [Output.listBackups_eq, Output.perform_listBackupsBy name_tangled, lost]
  rfl

end Sample

end KeyLayers
