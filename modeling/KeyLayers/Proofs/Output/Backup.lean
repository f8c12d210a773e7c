import KeyLayers.Proofs.Output.Task

/-!
# The names of backups

A backup is in the directory of the backups under a name of its own, which is
never that of the output.  Removing backups therefore takes away files or links
of other names, and nothing else.
-/

namespace KeyLayers

namespace Backup

theorem isName_stem {output : String} (named : Path.IsName output) (rest : String) :
    Path.IsName (stem output ++ rest) := by
  rcases named with ⟨notIdle, -⟩
  simp only [Path.isIdle, Bool.or_eq_false_iff, beq_eq_false_iff_ne, ne_eq] at notIdle
  simp only [Path.IsName, Path.isIdle, Bool.or_eq_false_iff, beq_eq_false_iff_ne, ne_eq, stem,
    ← String.toList_inj, String.toList_append] at notIdle ⊢
  generalize output.toList = name at notIdle ⊢
  cases name with
  | nil => simp at notIdle
  | cons first more =>
      cases more with
      | nil => simp_all
      | cons second others => simp_all

theorem stem_ne (output rest : String) : stem output ++ rest ≠ output := by
  intro same
  have lengths := congrArg (fun text => text.toList.length) same
  simp only [stem, String.toList_append, List.length_append] at lengths
  have dot : ".".toList.length = 1 := rfl
  omega

theorem nameAt_ne (output : String) (time : Timestamp) : nameAt output time ≠ output :=
  stem_ne output time.text

/-- A backup is named by the output, a dot and what is read as its moment. -/
theorem ofName?_eq_some_iff {time? : String → Option Timestamp} {output name : String}
    {backup : Backup} :
    ofName? time? output name = some backup ↔ backup.name = name ∧
      ∃ suffix, name = stem output ++ suffix ∧ time? suffix = some backup.time := by
  simp only [ofName?, bind, Option.bind_eq_some_iff, pure, Option.some.injEq,
    List.isPrefixOf?_eq_some_iff_append_eq]
  constructor
  · rintro ⟨rest, begins, time, read, rfl⟩
    refine ⟨rfl, String.ofList rest, ?_, read⟩
    rw [← String.toList_inj, String.toList_append, String.toList_ofList, begins]
  · rintro ⟨same, suffix, split, read⟩
    refine ⟨suffix.toList, ?_, backup.time, ?_, ?_⟩
    · rw [split, String.toList_append]
    · rw [String.ofList_toList, read]
    · rw [← same]

section

variable {time? : String → Option Timestamp} {output name : String} {backup : Backup}

theorem name_of_ofName? (found : ofName? time? output name = some backup) :
    backup.name = name :=
  (ofName?_eq_some_iff.1 found).1

theorem isName_of_ofName? (named : Path.IsName output)
    (found : ofName? time? output name = some backup) : Path.IsName backup.name := by
  rcases ofName?_eq_some_iff.1 found with ⟨same, rest, split, -⟩
  rw [same, split]
  exact isName_stem named rest

theorem name_ne_of_ofName? (found : ofName? time? output name = some backup) :
    backup.name ≠ output := by
  rcases ofName?_eq_some_iff.1 found with ⟨same, rest, split, -⟩
  rw [same, split]
  exact stem_ne output rest

end

/-- Backups of different moments have different names. -/
theorem text_of_nameAt {output : String} {time other : Timestamp}
    (same : nameAt output time = nameAt output other) : time.text = other.text := by
  rw [nameAt, nameAt, ← String.toList_inj, String.toList_append, String.toList_append,
    List.append_cancel_left_eq, String.toList_inj] at same
  exact same

end Backup

namespace Output

open FileTask

variable {output : Output} {files : FileSystem}

theorem isName_backups : Path.IsName "backups" :=
  ⟨by decide, by decide⟩

theorem backups_ne_empty (output : Output) : output.backups ≠ .empty := by
  rcases output.path.directory.segments_child isName_backups with ⟨-, front, split, -⟩
  rw [← backups] at split
  intro none
  rw [none] at split
  have last := congrArg List.getLast? split
  rw [List.getLast?_concat] at last
  exact absurd last (by decide)

/-- The path of something that may be removed as a backup of the output. -/
def IsBackup (output : Output) (path : Path) : Prop :=
  ∃ name, path = output.backups.child name ∧ Path.IsName name ∧ output.path.name? ≠ some name

theorem isBackup_of_among {name : String} {names : List String}
    (named : output.path.name? = some name) {backup : Backup}
    (member : backup ∈ Backup.among Timestamp.ofText? name names) :
    output.IsBackup (output.backups.child backup.name) := by
  rw [Backup.among, List.mem_mergeSort, List.mem_filterMap] at member
  rcases member with ⟨written, -, found⟩
  refine ⟨_, rfl, Backup.isName_of_ofName? (Path.segments_of_name named).1 found, ?_⟩
  rw [named, ne_eq, Option.some.injEq]
  exact (Backup.name_ne_of_ofName? found).symm

theorem perform_listBackups {paths : List Path} {after : FileSystem}
    (listed : perform output.listBackups files = (.ok paths, after)) :
    after = files ∧ ∀ path ∈ paths, output.IsBackup path := by
  rw [listBackups, perform_bind, perform_name] at listed
  cases named : output.path.name? with
  | none => simp [named] at listed
  | some name =>
      simp only [named, perform_bind, perform_look] at listed
      cases found : files.names output.backups with
      | error fault => simp [found, Except.mapError] at listed
      | ok names =>
          simp only [found, Except.mapError, perform_pure, Prod.mk.injEq, Except.ok.injEq]
            at listed
          rcases listed with ⟨same, rfl⟩
          refine ⟨rfl, ?_⟩
          intro path member
          rw [← same] at member
          rcases List.mem_map.1 member with ⟨backup, among, rfl⟩
          exact isBackup_of_among named among

theorem keeps_listBackups (output : Output) (holds : FileSystem → Prop) :
    Keeps holds output.listBackups := by
  apply (keeps_name holds).bind
  intro name
  exact Keeps.bind (Keeps.look _) fun names => Keeps.pure _

/-- Pruning keeps what the removal of each single backup keeps. -/
theorem keeps_prune {holds : FileSystem → Prop} (keep : Nat)
    (kept : ∀ path files after, output.IsBackup path → holds files →
      files.remove path = .ok after → holds after) : Keeps holds (output.prune keep) := by
  have keeps_removeAll : ∀ paths : List Path, (∀ path ∈ paths, output.IsBackup path) →
      Keeps holds (removeAll paths) := by
    intro paths
    induction paths with
    | nil => exact fun _ => Keeps.pure 0
    | cons path rest ih =>
        intro backups
        rw [removeAll]
        apply Keeps.bind
        · apply Keeps.change
          intro files after
          exact kept path files after (backups path List.mem_cons_self)
        · intro removed
          apply (ih fun other later => backups other (List.mem_cons_of_mem path later)).bind
          intro count
          exact Keeps.pure _
  intro files held
  rw [prune, perform_bind]
  cases listed : perform output.listBackups files with
  | mk outcome middle =>
      cases outcome with
      | error error =>
          have same := keeps_listBackups output holds files held
          rwa [listed] at same
      | ok paths =>
          rcases perform_listBackups listed with ⟨rfl, backups⟩
          exact keeps_removeAll _ (fun path member => backups path (List.mem_of_mem_drop member))
            _ held

end Output

end KeyLayers
