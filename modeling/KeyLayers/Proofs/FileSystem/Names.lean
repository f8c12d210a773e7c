import KeyLayers.Proofs.FileSystem.Change
import Mathlib.Data.List.Nodup

/-!
# The names in a directory

The names in a directory are those of its entries, each of them once.  They are
enumerated in the order of the entries, which is nothing that a program can rely on:
file systems that differ in it only (`IsReordered`) agree on all paths, and enumerate
the same names.
-/

namespace KeyLayers

namespace FileSystem

section

variable {files : FileSystem} {directory place : Place} {name : String}

/-- There is one entry at each place, so a look-up finds what is listed. -/
theorem entryAt?_eq_some_iff {entry : Entry} (some_ : place ≠ []) :
    files.entryAt? place = some entry ↔ (place, entry) ∈ files.entries := by
  rw [entryAt?, if_neg some_, Option.map_eq_some_iff]
  constructor
  · rintro ⟨⟨other, _⟩, found, rfl⟩
    have same : other = place := by simpa using List.find?_some found
    exact same ▸ List.mem_of_find?_eq_some found
  · intro member
    cases found : files.entries.find? (·.1 == place) with
    | none =>
        rw [List.find?_eq_none] at found
        exact absurd (beq_self_eq_true place) (found _ member)
    | some item =>
        have same : item.1 = place := by simpa using List.find?_some found
        have item_eq := List.inj_on_of_nodup_map files.nodup
          (List.mem_of_find?_eq_some found) member same
        exact ⟨item, rfl, by rw [item_eq]⟩

theorem mem_namesAt_iff :
    name ∈ files.namesAt directory ↔ files.nodeAt? (directory ++ [name]) ≠ none := by
  rw [ne_eq, nodeAt?_eq_none_iff, ← ne_eq, Option.ne_none_iff_exists', namesAt,
    List.mem_filterMap]
  constructor
  · rintro ⟨⟨place, entry⟩, among, found⟩
    rw [Option.ite_none_right_eq_some] at found
    rcases found with ⟨above, last⟩
    have same : place = directory ++ [name] := by
      rw [← above, List.dropLast_append_getLast? name last]
    exact ⟨entry, (entryAt?_eq_some_iff (by simp)).2 (same ▸ among)⟩
  · rintro ⟨entry, found⟩
    exact ⟨_, (entryAt?_eq_some_iff (by simp)).1 found, by simp⟩

theorem nodup_namesAt (files : FileSystem) (directory : Place) :
    (files.namesAt directory).Nodup := by
  have places : files.namesAt directory = (files.entries.map Prod.fst).filterMap fun place =>
      if place.dropLast = directory then place.getLast? else none := by
    rw [List.filterMap_map]
    rfl
  rw [places, List.Nodup, List.pairwise_filterMap]
  apply files.nodup.imp
  intro place other different name found name' found' same
  rw [Option.ite_none_right_eq_some] at found found'
  subst same
  apply different
  rw [← List.dropLast_append_getLast? name found.2, ← List.dropLast_append_getLast? name found'.2,
    found.1, found'.1]

theorem names_eq_ok_iff {path : Path} {names : List String} :
    files.names path = .ok names ↔ ∃ directory, files.locate true path = .ok directory ∧
      files.nodeAt? directory = some .directory ∧ names = files.namesAt directory := by
  rw [FileSystem.names, bind_eq_ok_iff]
  refine exists_congr fun directory => and_congr_right fun _ => ?_
  rw [← nodeAt?]
  rcases files.nodeAt? directory with _ | (content | _ | target) <;> simp [eq_comm]

end

/-! ## The order of enumeration -/

/-- Whether two file systems are the same up to the order in which directories are enumerated. -/
structure IsReordered (other files : FileSystem) : Prop where
  entries : other.entries.Perm files.entries
  workingPlace : other.workingPlace = files.workingPlace

namespace IsReordered

variable {files other : FileSystem}

theorem entryAt?_eq (reordered : other.IsReordered files) (place : Place) :
    other.entryAt? place = files.entryAt? place := by
  by_cases root : place = []
  · rw [root, entryAt?, entryAt?, if_pos rfl, if_pos rfl]
  · ext entry
    rw [entryAt?_eq_some_iff root, entryAt?_eq_some_iff root, reordered.entries.mem_iff]

theorem nodeAt?_eq (reordered : other.IsReordered files) (place : Place) :
    other.nodeAt? place = files.nodeAt? place := by
  rw [nodeAt?, nodeAt?, reordered.entryAt?_eq]

theorem walk_eq (reordered : other.IsReordered files) (follow : Bool) (links : Nat)
    (place : Place) (segments : List String) :
    other.walk follow links place segments = files.walk follow links place segments := by
  induction links, segments using segments_induction generalizing place with
  | nil links => rw [walk_nil, walk_nil]
  | idle links segment rest idle ih => rw [walk_idle idle, walk_idle idle, ih]
  | up links rest ih => rw [walk_up, walk_up, ih]
  | name links segment rest named ih fewer =>
      rw [walk_name named, walk_name named, reordered.nodeAt?_eq]
      cases files.nodeAt? (place ++ [segment]) with
      | none => rfl
      | some node =>
          cases node with
          | file content => rfl
          | directory => exact ih _
          | link target =>
              cases links with
              | zero => rfl
              | succ links => simp only [fewer links _ rfl]

theorem locate_eq (reordered : other.IsReordered files) (follow : Bool) (path : Path) :
    other.locate follow path = files.locate follow path := by
  rw [locate, locate, reordered.workingPlace, reordered.walk_eq]

theorem namesAt_perm (reordered : other.IsReordered files) (directory : Place) :
    (other.namesAt directory).Perm (files.namesAt directory) :=
  reordered.entries.filterMap _

/-- What does not depend on the order of the names is the same for both. -/
theorem map_names_eq {α : Type} (reordered : other.IsReordered files) (path : Path)
    (read : List String → α)
    (unordered : ∀ names names', names.Perm names' → read names = read names') :
    (other.names path).map read = (files.names path).map read := by
  rw [names, names, reordered.locate_eq]
  cases files.locate true path with
  | error fault => rfl
  | ok place =>
      simp only [bind, Except.bind, reordered.entryAt?_eq]
      rcases (files.entryAt? place).map Entry.node with _ | (content | _ | target)
      · rfl
      · rfl
      · exact congrArg Except.ok (unordered _ _ (reordered.namesAt_perm place))
      · rfl

end IsReordered

end FileSystem

end KeyLayers
