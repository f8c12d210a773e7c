import KeyLayers.Proofs.FileSystem.Names
import KeyLayers.Proofs.Output.Backup
import KeyLayers.Proofs.Timestamp
import Mathlib.Data.Prod.Lex
import Mathlib.Data.String.Basic

/-!
# The list of backups

A list of backups is what the directory of the backups holds, and nothing else: each
entry whose name is the name of the output, a dot and a moment, once.  It is ordered
by moments and paths, the greatest first.  As no two entries share a path, the order is
strict, and the order in which the directory is enumerated does not show in the list.

Nothing is used of how moments are read, so the result is about every such function
(`Output.listBackupsBy`).
-/

namespace KeyLayers

open FileTask

/-! ## The order of backups -/

namespace Backup

/-- What backups are ordered by: their moments, then their names. -/
def rank (backup : Backup) : Lex (List Int × String) :=
  toLex (backup.time.key, backup.name)

theorem rank_injective {left right : Backup} (same : left.rank = right.rank) : left = right := by
  cases left
  cases right
  rw [rank, rank, toLex_inj, Prod.mk.injEq] at same
  rcases same with ⟨times, rfl⟩
  cases Timestamp.key_injective times
  rfl

theorem isBefore_iff {left right : Backup} :
    left.isBefore right = true ↔ right.rank ≤ left.rank := by
  rw [isBefore, rank, rank, Prod.Lex.toLex_le_toLex]
  split
  case isTrue same => simp [same]
  case isFalse different =>
    have apart : right.time.key ≠ left.time.key :=
      fun same => different (Timestamp.key_injective same).symm
    simp [Timestamp.le, apart, le_iff_lt_or_eq]

theorem isBefore_trans (first second third : Backup) (before : first.isBefore second = true)
    (after : second.isBefore third = true) : first.isBefore third = true :=
  isBefore_iff.2 ((isBefore_iff.1 after).trans (isBefore_iff.1 before))

theorem isBefore_total (left right : Backup) :
    (left.isBefore right || right.isBefore left) = true := by
  rw [Bool.or_eq_true, isBefore_iff, isBefore_iff]
  exact le_total _ _

theorem eq_of_isBefore {left right : Backup} (before : left.isBefore right = true)
    (after : right.isBefore left = true) : left = right :=
  rank_injective (le_antisymm (isBefore_iff.1 after) (isBefore_iff.1 before))

/-! ## The backups among some names -/

section

variable {time? : String → Option Timestamp} {output : String} {names others : List String}
  {backup : Backup}

theorem mem_among :
    backup ∈ among time? output names ↔
      backup.name ∈ names ∧ ofName? time? output backup.name = some backup := by
  rw [among, List.mem_mergeSort, List.mem_filterMap]
  constructor
  · rintro ⟨name, member, found⟩
    cases name_of_ofName? found
    exact ⟨member, found⟩
  · rintro ⟨member, found⟩
    exact ⟨backup.name, member, found⟩

theorem pairwise_among (time? : String → Option Timestamp) (output : String)
    (names : List String) : (among time? output names).Pairwise (·.isBefore ·) :=
  List.pairwise_mergeSort isBefore_trans isBefore_total _

/-- Names that are not repeated give backups whose names are not repeated. -/
theorem nodup_map_name_among (nodup : names.Nodup) :
    ((among time? output names).map name).Nodup := by
  rw [among, ((List.mergeSort_perm _ _).map name).nodup_iff, List.map_filterMap, List.Nodup,
    List.pairwise_filterMap]
  apply nodup.imp
  intro first second different name found name' found' same
  rw [Option.map_eq_some_iff] at found found'
  rcases found with ⟨backup, found, rfl⟩
  rcases found' with ⟨backup', found', rfl⟩
  apply different
  rw [← name_of_ofName? found, ← name_of_ofName? found', same]

/-- Any order of the backups in which each may stand before the next is the order of the list. -/
theorem among_eq_of_pairwise {backups : List Backup}
    (perm : (names.filterMap (ofName? time? output)).Perm backups)
    (sorted : backups.Pairwise (·.isBefore ·)) : among time? output names = backups :=
  ((List.mergeSort_perm _ _).trans perm).eq_of_pairwise (fun _ _ _ _ => eq_of_isBefore)
    (pairwise_among time? output names) sorted

/-- The order is total, so that of the names is lost. -/
theorem among_eq_of_perm (perm : names.Perm others) :
    among time? output names = among time? output others :=
  among_eq_of_pairwise ((perm.filterMap _).trans (List.mergeSort_perm _ _).symm)
    (pairwise_among time? output others)

end

theorem ofName?_nameAt (output : String) {time : Timestamp} (valid : time.isValid = true) :
    ofName? Timestamp.ofText? output (nameAt output time) = some ⟨time, nameAt output time⟩ := by
  rw [ofName?_eq_some_iff]
  exact ⟨rfl, time.text, rfl, Timestamp.ofText?_text valid⟩

end Backup

/-! ## The paths in one directory -/

namespace Path

theorem exists_segments_child (base : Path) :
    ∃ front, ∀ name, (base.child name).segments = front ++ [name] := by
  have relative (name : String) : isAbsolute ⟨[name]⟩ = false := by simp [isAbsolute]
  by_cases empty : base.segments.getLast? = some ""
  · refine ⟨base.segments.dropLast, fun name => ?_⟩
    rw [child, join, relative, if_neg Bool.false_ne_true, if_pos empty]
  · refine ⟨base.segments, fun name => ?_⟩
    rw [child, join, relative, if_neg Bool.false_ne_true, if_neg empty]

theorem child_injective (base : Path) : Function.Injective base.child := by
  intro left right same
  rcases base.exists_segments_child with ⟨front, split⟩
  have segments := congrArg Path.segments same
  rw [split, split] at segments
  exact List.singleton_inj.1 (List.append_cancel_left segments)

/-- Paths in one directory are in the order of their names. -/
theorem segments_child_lt {left right : String} (base : Path) (less : left < right) :
    (base.child left).segments < (base.child right).segments := by
  rcases base.exists_segments_child with ⟨front, split⟩
  rw [split, split]
  exact List.append_left_lt (List.cons_lt_cons_iff.2 (Or.inl less))

end Path

/-! ## The list of backups -/

namespace Output

/-- The backups of the output, if a given function reads the moments in names. -/
def listBackupsBy (output : Output) (time? : String → Option Timestamp) :
    FileTask (List Path) := do
  let name ← output.name
  let names ← FileTask.look (·.names output.backups)
  return (Backup.among time? name names).map (output.backups.child ·.name)

theorem listBackups_eq (output : Output) :
    output.listBackups = output.listBackupsBy Timestamp.ofText? := rfl

/-- The directory of the backups of an output that has a name. -/
structure Archive (output : Output) (files : FileSystem) where
  name : String
  directory : Place
  named : output.path.name? = some name
  located : files.locate true output.backups = .ok directory
  isDirectory : files.nodeAt? directory = some .directory

section

variable {output : Output} {time? : String → Option Timestamp} {files after : FileSystem}
  {name : String}

theorem perform_listBackupsBy (named : output.path.name? = some name) :
    perform (output.listBackupsBy time?) files =
      (((files.names output.backups).map fun names =>
        (Backup.among time? name names).map (output.backups.child ·.name)).mapError .files,
          files) := by
  simp only [listBackupsBy, perform_bind, perform_name, named, perform_look]
  cases files.names output.backups <;> rfl

/-- The list, once the names of the backups among those in the directory are known. -/
theorem perform_listBackupsBy_eq {names own : List String}
    (named : output.path.name? = some name) (found : files.names output.backups = .ok names)
    (among : (Backup.among time? name names).map Backup.name = own) :
    perform (output.listBackupsBy time?) files = (.ok (own.map output.backups.child), files) := by
  rw [perform_listBackupsBy named, found, ← among, List.map_map]
  rfl

theorem perform_listBackupsBy_of_nameless (nameless : output.path.name? = none) :
    perform (output.listBackupsBy time?) files =
      (.error (.backupFailed (.nameless output.path)), files) := by
  simp only [listBackupsBy, perform_bind, perform_name, nameless]

theorem perform_listBackupsBy_eq_ok {paths : List Path} :
    perform (output.listBackupsBy time?) files = (.ok paths, after) ↔ after = files ∧
      ∃ archive : output.Archive files,
        paths = (Backup.among time? archive.name (files.namesAt archive.directory)).map
          (output.backups.child ·.name) := by
  cases named : output.path.name? with
  | none =>
      rw [perform_listBackupsBy_of_nameless named]
      constructor
      · nofun
      · rintro ⟨-, archive, -⟩
        cases named.symm.trans archive.named
  | some name =>
      rw [perform_listBackupsBy named, Prod.mk.injEq, mapError_eq_ok_iff, map_eq_ok_iff,
        and_comm, eq_comm]
      apply and_congr_right'
      constructor
      · rintro ⟨names, found, rfl⟩
        rcases FileSystem.names_eq_ok_iff.1 found with ⟨directory, located, isDirectory, rfl⟩
        exact ⟨⟨name, directory, named, located, isDirectory⟩, rfl⟩
      · rintro ⟨archive, rfl⟩
        cases named.symm.trans archive.named
        exact ⟨_, FileSystem.names_eq_ok_iff.2
          ⟨_, archive.located, archive.isDirectory, rfl⟩, rfl⟩

/--
What a list of backups consists of: the entries in the directory with the right names,
each of them once, and never an older one, or one of the same moment with a lesser path,
before another one.
-/
structure Archive.Lists (archive : output.Archive files) (time? : String → Option Timestamp)
    (backups : List Backup) : Prop where
  mem_iff : ∀ backup, backup ∈ backups ↔
    files.nodeAt? (archive.directory ++ [backup.name]) ≠ none ∧
      ∃ suffix, backup.name = archive.name ++ "." ++ suffix ∧ time? suffix = some backup.time
  once : (backups.map (output.backups.child ·.name)).Nodup
  newestFirst : backups.Pairwise fun earlier later =>
    later.time.key < earlier.time.key ∨ later.time = earlier.time ∧
      (output.backups.child later.name).segments < (output.backups.child earlier.name).segments

theorem Archive.lists_among (archive : output.Archive files)
    (time? : String → Option Timestamp) :
    archive.Lists time?
      (Backup.among time? archive.name (files.namesAt archive.directory)) := by
  have names : ((Backup.among time? archive.name (files.namesAt archive.directory)).map
      Backup.name).Nodup := Backup.nodup_map_name_among (files.nodup_namesAt archive.directory)
  constructor
  case mem_iff =>
    intro backup
    rw [Backup.mem_among, FileSystem.mem_namesAt_iff, Backup.ofName?_eq_some_iff, Backup.stem]
    simp only [true_and]
  case once =>
    have paths := names.map output.backups.child_injective
    rwa [List.map_map] at paths
  case newestFirst =>
    rw [List.Nodup, List.pairwise_map] at names
    apply ((Backup.pairwise_among time? archive.name _).and names).imp
    rintro earlier later ⟨before, different⟩
    rw [Backup.isBefore_iff, Backup.rank, Backup.rank, Prod.Lex.toLex_le_toLex] at before
    rcases before with older | ⟨same, le⟩
    · exact Or.inl older
    · exact Or.inr ⟨Timestamp.key_injective same,
        output.backups.segments_child_lt (lt_of_le_of_ne le different.symm)⟩

end

/--
A list of backups is exact: whatever the directory holds, in whatever order it is
enumerated, and however moments are read.
-/
theorem listBackups_exact (output : Output) (time? : String → Option Timestamp)
    (files other : FileSystem) (reordered : other.IsReordered files) :
    output.listBackups = output.listBackupsBy Timestamp.ofText? ∧
      perform (output.listBackupsBy time?) other =
        ((perform (output.listBackupsBy time?) files).1, other) ∧
      ((∃ paths, (perform (output.listBackupsBy time?) files).1 = .ok paths) ↔
        Nonempty (output.Archive files)) ∧
      ∀ archive : output.Archive files, ∃ backups,
        (perform (output.listBackupsBy time?) files).1 =
            .ok (backups.map (output.backups.child ·.name)) ∧
          archive.Lists time? backups := by
  refine ⟨output.listBackups_eq, ?_, ?_, ?_⟩
  · cases named : output.path.name? with
    | none => rw [perform_listBackupsBy_of_nameless named, perform_listBackupsBy_of_nameless named]
    | some name =>
        rw [perform_listBackupsBy named, perform_listBackupsBy named, reordered.map_names_eq]
        intro names names' perm
        rw [Backup.among_eq_of_perm perm]
  · constructor
    · rintro ⟨paths, performed⟩
      rcases perform_listBackupsBy_eq_ok.1 (Prod.ext performed rfl) with ⟨-, archive, -⟩
      exact ⟨archive⟩
    · rintro ⟨archive⟩
      exact ⟨_, congrArg Prod.fst (perform_listBackupsBy_eq_ok.2 ⟨rfl, archive, rfl⟩)⟩
  · intro archive
    exact ⟨_, congrArg Prod.fst (perform_listBackupsBy_eq_ok.2 ⟨rfl, archive, rfl⟩),
      archive.lists_among time?⟩

/-! ## The backups in a directory -/

/-- The backups of an output of some name in a directory, in the order of the list. -/
def listed (name : String) (files : FileSystem) (directory : Place) : List Backup :=
  Backup.among Timestamp.ofText? name (files.namesAt directory)

section

variable {output : Output} {files after : FileSystem} {name : String} {directory : Place}
  {backup : Backup}

theorem mem_listed :
    backup ∈ listed name files directory ↔
      Backup.ofName? Timestamp.ofText? name backup.name = some backup ∧
        files.nodeAt? (directory ++ [backup.name]) ≠ none := by
  rw [listed, Backup.mem_among, FileSystem.mem_namesAt_iff, and_comm]

theorem eq_of_name {other : Backup} (member : backup ∈ listed name files directory)
    (member' : other ∈ listed name files directory) (same : backup.name = other.name) :
    backup = other := by
  have found := (mem_listed.1 member).1
  rw [same, (mem_listed.1 member').1, Option.some.injEq] at found
  exact found.symm

theorem pairwise_listed (name : String) (files : FileSystem) (directory : Place) :
    (listed name files directory).Pairwise (·.isBefore ·) :=
  Backup.pairwise_among _ _ _

theorem nodup_listed (name : String) (files : FileSystem) (directory : Place) :
    (listed name files directory).Nodup :=
  (Backup.nodup_map_name_among (files.nodup_namesAt directory)).of_map

theorem perform_listBackups_eq_ok {paths : List Path} :
    perform output.listBackups files = (.ok paths, after) ↔ after = files ∧
      ∃ archive : output.Archive files,
        paths = (listed archive.name files archive.directory).map (output.backups.child ·.name) :=
  perform_listBackupsBy_eq_ok

end

namespace Archive

section

variable {output : Output} {files : FileSystem}

/-- The backups from the newest to the oldest one. -/
def backups (archive : output.Archive files) : List Backup :=
  listed archive.name files archive.directory

/-- Where a backup is. -/
def place (archive : output.Archive files) (backup : Backup) : Place :=
  archive.directory ++ [backup.name]

/-- The path of a backup. -/
def path (_ : output.Archive files) (backup : Backup) : Path :=
  output.backups.child backup.name

theorem perform_listBackups (archive : output.Archive files) :
    perform output.listBackups files = (.ok (archive.backups.map archive.path), files) :=
  perform_listBackups_eq_ok.2 ⟨rfl, archive, rfl⟩

variable {archive : output.Archive files} {backup : Backup}

theorem name_ne (member : backup ∈ archive.backups) : backup.name ≠ archive.name :=
  Backup.name_ne_of_ofName? (mem_listed.1 member).1

theorem isName (member : backup ∈ archive.backups) : Path.IsName backup.name :=
  Backup.isName_of_ofName? (Path.segments_of_name archive.named).1 (mem_listed.1 member).1

end

end Archive

/-- Where there are no more names than are kept, nothing is pruned. -/
theorem perform_prune_of_few {output : Output} {files : FileSystem} {name : String}
    {names : List String} {keep : Nat} (named : output.path.name? = some name)
    (found : files.names output.backups = .ok names) (few : names.length ≤ keep) :
    perform (output.prune keep) files = (.ok 0, files) := by
  have fewer : ((Backup.among Timestamp.ofText? name names).map
      (output.backups.child ·.name)).length ≤ keep := by
    rw [List.length_map, Backup.among, List.length_mergeSort]
    exact (List.length_filterMap_le ..).trans few
  simp only [prune, listBackups, perform_bind, perform_name, named, perform_look, found,
    Except.mapError, perform_pure, List.drop_of_length_le fewer, removeAll]

end Output

/-! ## A directory of all kinds of names -/

namespace Sample

def archived : Output := ⟨.ofText "out.json"⟩

theorem name_archived : archived.path.name? = some "out.json" := by decide

section

variable {files : FileSystem}

/-- A name alone is an entry of the root, where paths begin in all of these examples. -/
theorem slot?_alone {path : Path} {name : String} (named : path.name? = some name)
    (alone : path.directory = .here) (home : files.workingPlace = []) :
    files.slot? path = some [name] := by
  have slot : files.slot? path = some (files.workingPlace ++ [name]) :=
    FileSystem.slot?_of_name_alone named alone (by rw [home]; exact files.nodeAt?_root)
  rwa [home] at slot

theorem slot?_archived (home : files.workingPlace = []) :
    files.slot? archived.path = some ["out.json"] :=
  slot?_alone name_archived (by decide) home

theorem slot?_backups (home : files.workingPlace = []) :
    files.slot? archived.backups = some ["backups"] :=
  slot?_alone (by decide) (by decide) home

theorem locate_backups (home : files.workingPlace = [])
    (isDirectory : files.nodeAt? ["backups"] = some .directory) :
    files.locate true archived.backups = .ok ["backups"] :=
  FileSystem.locate_of_slot (slot?_backups home) (by decide) (by simp [isDirectory])

theorem names_backups (home : files.workingPlace = [])
    (isDirectory : files.nodeAt? ["backups"] = some .directory) :
    files.names archived.backups = .ok (files.namesAt ["backups"]) :=
  FileSystem.names_eq_ok_iff.2 ⟨_, locate_backups home isDirectory, isDirectory, rfl⟩

theorem readText_archived (home : files.workingPlace = []) {text : String}
    (file : files.nodeAt? ["out.json"] = some (.file text.toUTF8)) :
    files.readText archived.path = .ok text :=
  FileSystem.readText_of_slot? (slot?_archived home) (by decide) file

end

/-- Two backups of one moment and an older one, among a backup of something else and a draft. -/
def mixed : FileSystem where
  entries :=
    [(["backups"], { node := .directory }),
      (["backups", "out.json.2024-2-29_120000"], { node := .file "first".toUTF8 }),
      (["backups", "out.json.2023-12-31_235959"], { node := .file "oldest".toUTF8 }),
      (["backups", "other.json.2024-02-29_120000"], { node := .file "other".toUTF8 }),
      (["backups", "out.json.draft"], { node := .file "draft".toUTF8 }),
      (["backups", "out.json.2024-02-29_120000"], { node := .directory })]

/-- The same files, enumerated in the other order. -/
def mixedBackwards : FileSystem where
  entries := mixed.entries.reverse
  nodup := by rw [List.map_reverse, List.nodup_reverse]; exact mixed.nodup

theorem names_mixed :
    mixed.names archived.backups = .ok
      ["out.json.2024-2-29_120000", "out.json.2023-12-31_235959",
        "other.json.2024-02-29_120000", "out.json.draft", "out.json.2024-02-29_120000"] :=
  names_backups rfl rfl

theorem among_mixed :
    (Backup.among Timestamp.ofText? "out.json"
      ["out.json.2024-2-29_120000", "out.json.2023-12-31_235959",
        "other.json.2024-02-29_120000", "out.json.draft", "out.json.2024-02-29_120000"]).map
          Backup.name =
      ["out.json.2024-2-29_120000", "out.json.2024-02-29_120000",
        "out.json.2023-12-31_235959"] := by
  have listed : Backup.among Timestamp.ofText? "out.json"
      ["out.json.2024-2-29_120000", "out.json.2023-12-31_235959",
        "other.json.2024-02-29_120000", "out.json.draft", "out.json.2024-02-29_120000"] =
      [⟨⟨2024, 2, 29, 12, 0, 0⟩, "out.json.2024-2-29_120000"⟩,
        ⟨⟨2024, 2, 29, 12, 0, 0⟩, "out.json.2024-02-29_120000"⟩,
        ⟨⟨2023, 12, 31, 23, 59, 59⟩, "out.json.2023-12-31_235959"⟩] :=
    Backup.among_eq_of_pairwise (by decide +kernel) (by decide +kernel)
  rw [listed]
  rfl

/-- Both ways of writing a moment are backups, the greater name first. -/
theorem mixed_listed :
    mixedBackwards.IsReordered mixed ∧
      perform (archived.listBackupsBy Timestamp.ofText?) mixedBackwards =
        (.ok (["out.json.2024-2-29_120000", "out.json.2024-02-29_120000",
          "out.json.2023-12-31_235959"].map archived.backups.child), mixedBackwards) := by
  have reordered : mixedBackwards.IsReordered mixed := ⟨List.reverse_perm _, rfl⟩
  refine ⟨reordered, ?_⟩
  rw [(Output.listBackups_exact archived Timestamp.ofText? mixed mixedBackwards
    reordered).2.1, Output.perform_listBackupsBy_eq name_archived names_mixed among_mixed]

end Sample

end KeyLayers
