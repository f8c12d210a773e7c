import KeyLayers.Proofs.FileSystem.Slot

/-!
# What changes of files do

Each operation changes the entry at one place, and which place that is follows
from the path; only making directories can add several entries.  Directories
are never taken away, files are never put in their stead, and the links that
there are afterwards were there before.
-/

namespace KeyLayers.FileSystem

section

variable {files after : FileSystem} {path : Path} {place other : Place} {entry : Entry}
  {content : ByteArray}

/-! ## One entry -/

theorem ne_nil_of_not_directory (other : files.nodeAt? place ≠ some .directory) :
    place ≠ [] := by
  rintro rfl
  exact other files.nodeAt?_root

theorem entryAt?_put_self (some : place ≠ []) :
    (files.put place entry).entryAt? place = Option.some entry := by
  rw [entryAt?_put, if_pos ⟨rfl, some⟩]

theorem entryAt?_put_of_ne (different : other ≠ place) :
    (files.put place entry).entryAt? other = files.entryAt? other := by
  rw [entryAt?_put, if_neg (by simp [different])]

theorem entryAt?_erase_self (some : place ≠ []) : (files.erase place).entryAt? place = none := by
  rw [entryAt?_erase, if_pos ⟨rfl, some⟩]

theorem entryAt?_erase_of_ne (different : other ≠ place) :
    (files.erase place).entryAt? other = files.entryAt? other := by
  rw [entryAt?_erase, if_neg (by simp [different])]

theorem nodeAt?_put_self (some : place ≠ []) :
    (files.put place entry).nodeAt? place = Option.some entry.node := by
  rw [nodeAt?, entryAt?_put_self some]
  rfl

theorem nodeAt?_put_of_ne (different : other ≠ place) :
    (files.put place entry).nodeAt? other = files.nodeAt? other := by
  rw [nodeAt?, entryAt?_put_of_ne different, nodeAt?]

theorem nodeAt?_erase_self (some : place ≠ []) : (files.erase place).nodeAt? place = none := by
  rw [nodeAt?, entryAt?_erase_self some]
  rfl

theorem nodeAt?_erase_of_ne (different : other ≠ place) :
    (files.erase place).nodeAt? other = files.nodeAt? other := by
  rw [nodeAt?, entryAt?_erase_of_ne different, nodeAt?]

/-- A place where nothing is followed and nothing is entered. -/
def IsEnd (files : FileSystem) (place : Place) : Prop :=
  files.nodeAt? place = none ∨ ∃ content, files.nodeAt? place = some (.file content)

theorem IsEnd.ne_directory (ends : files.IsEnd place) :
    files.nodeAt? place ≠ some .directory := by
  rcases ends with none | ⟨content, file⟩
  · simp [none]
  · simp [file]

theorem IsEnd.ne_link (ends : files.IsEnd place) (target : Path) :
    files.nodeAt? place ≠ some (.link target) := by
  rcases ends with none | ⟨content, file⟩
  · simp [none]
  · simp [file]

theorem isEnd_put_file (some : place ≠ []) (mark : Bool) :
    (files.put place { node := .file content, isReadOnly := mark }).IsEnd place :=
  Or.inr ⟨content, nodeAt?_put_self some⟩

/-- Where an entry changes and nothing is followed or entered before, all ways stay open. -/
theorem includes_of_isEnd {larger smaller : FileSystem} (ends : smaller.IsEnd place)
    (same : ∀ other, other ≠ place → larger.nodeAt? other = smaller.nodeAt? other)
    (workingPlace : larger.workingPlace = smaller.workingPlace) : larger.Includes smaller where
  directory other found := by
    rwa [same]
    rintro rfl
    exact ends.ne_directory found
  link other target found := by
    rwa [same]
    rintro rfl
    exact ends.ne_link target found
  workingPlace := workingPlace

theorem includes_put (ends : files.IsEnd place) (entry : Entry) :
    (files.put place entry).Includes files :=
  includes_of_isEnd ends (fun _ different => nodeAt?_put_of_ne different) rfl

/-- A file opens no way that was not there. -/
theorem includes_of_put (some : place ≠ []) (content : ByteArray) (mark : Bool) :
    files.Includes (files.put place { node := .file content, isReadOnly := mark }) :=
  includes_of_isEnd (isEnd_put_file some mark)
    (fun _ different => (nodeAt?_put_of_ne different).symm) rfl

theorem includes_of_erase (some : place ≠ []) : files.Includes (files.erase place) :=
  includes_of_isEnd (Or.inl (nodeAt?_erase_self some))
    (fun _ different => (nodeAt?_erase_of_ne different).symm) rfl

/-! ## Finding and reading -/

theorem find_eq_ok_iff :
    files.find path = .ok entry ↔
      ∃ place, files.locate true path = .ok place ∧ files.entryAt? place = some entry := by
  rw [find, bind_eq_ok_iff]
  constructor
  · rintro ⟨place, located, found⟩
    refine ⟨place, located, ?_⟩
    cases at_ : files.entryAt? place with
    | none => simp [at_] at found
    | some entry => simpa [at_] using found
  · rintro ⟨place, located, found⟩
    exact ⟨place, located, by simp [found]⟩

theorem isPresent_iff : files.isPresent path = true ↔ ∃ entry, files.find path = .ok entry := by
  rw [isPresent]
  cases files.find path <;> simp [Except.isOk, Except.toBool]

theorem isPresent_of_vacant (found : files.slot? path = some place)
    (last : path.segments.getLast? = path.name?) (vacant : files.entryAt? place = none) :
    files.isPresent path = false := by
  have located : files.locate true path = .ok place :=
    locate_of_slot found last (by simp [nodeAt?, vacant])
  rw [isPresent, find, located]
  simp only [bind, Except.bind, vacant]
  rfl

theorem readContent_eq_ok_iff :
    files.readContent path = .ok content ↔
      ∃ place, files.locate true path = .ok place ∧
        files.nodeAt? place = some (.file content) := by
  rw [readContent, bind_eq_ok_iff]
  constructor
  · rintro ⟨entry, found, read⟩
    rcases find_eq_ok_iff.1 found with ⟨place, located, at_⟩
    refine ⟨place, located, ?_⟩
    rw [nodeAt?_of_entryAt? at_]
    cases node : entry.node with
    | file other =>
        simp only [node, Except.ok.injEq] at read
        rw [read]
    | directory => simp [node] at read
    | link target => simp [node] at read
  · rintro ⟨place, located, at_⟩
    rw [nodeAt?, Option.map_eq_some_iff] at at_
    rcases at_ with ⟨entry, at_, node⟩
    exact ⟨entry, find_eq_ok_iff.2 ⟨place, located, at_⟩, by simp [node]⟩

theorem isPresent_of_readContent (read : files.readContent path = .ok content) :
    files.isPresent path = true := by
  rw [readContent, bind_eq_ok_iff] at read
  rcases read with ⟨entry, found, -⟩
  exact isPresent_iff.2 ⟨entry, found⟩

theorem readText_eq_ok_iff {text : String} :
    files.readText path = .ok text ↔ files.readContent path = .ok text.toUTF8 := by
  rw [readText, bind_eq_ok_iff]
  constructor
  · rintro ⟨content, read, decoded⟩
    rw [read]
    cases text_ : String.fromUTF8? content with
    | none => simp [text_] at decoded
    | some other =>
        simp only [text_, Except.ok.injEq] at decoded
        subst decoded
        rw [String.fromUTF8?] at text_
        split at text_
        · cases text_
          rfl
        · cases text_
  · intro read
    exact ⟨text.toUTF8, read, by rw [fromUTF8?_toUTF8]⟩

/-- A file is read under its name, if nothing stands behind the name. -/
theorem readText_of_slot? {text : String} (found : files.slot? path = some place)
    (last : path.segments.getLast? = path.name?)
    (file : files.nodeAt? place = some (.file text.toUTF8)) : files.readText path = .ok text := by
  apply readText_eq_ok_iff.2
  apply readContent_eq_ok_iff.2
  exact ⟨place, locate_of_slot found last (by simp [file]), file⟩

/-! ## Writing, replacing and removing -/

theorem write_eq_ok (written : files.write path content = .ok after) :
    ∃ place mark, files.locate true path = .ok place ∧ files.IsEnd place ∧
      (∀ entry, files.entryAt? place = some entry → entry.isReadOnly = mark) ∧
        after = files.put place { node := .file content, isReadOnly := mark } := by
  rw [write, bind_eq_ok_iff] at written
  rcases written with ⟨place, located, written⟩
  cases found : files.entryAt? place with
  | none =>
      simp only [found, Except.ok.injEq] at written
      exact ⟨place, false, located, Or.inl (nodeAt?_eq_none_iff.2 found), by simp [found],
        written.symm⟩
  | some entry =>
      rcases entry with ⟨node, mark⟩
      cases node with
      | directory => simp [found] at written
      | link target => simp [found] at written
      | file old =>
          simp only [found, Except.ok.injEq] at written
          refine ⟨place, mark, located, Or.inr ⟨old, nodeAt?_of_entryAt? found⟩, ?_,
            written.symm⟩
          intro entry same
          rw [found, Option.some.injEq] at same
          rw [← same]

/-- What is there but no directory or link can be written over. -/
theorem exists_write (located : files.locate true path = .ok place) (ends : files.IsEnd place)
    (content : ByteArray) :
    ∃ mark, files.write path content =
      .ok (files.put place { node := .file content, isReadOnly := mark }) := by
  rw [write, located]
  simp only [bind, Except.bind]
  cases found : files.entryAt? place with
  | none => exact ⟨false, rfl⟩
  | some entry =>
      rcases ends with none | ⟨old, file⟩
      · rw [nodeAt?_of_entryAt? found] at none
        cases none
      · rw [nodeAt?_of_entryAt? found, Option.some.injEq] at file
        rcases entry with ⟨_, mark⟩
        cases file
        exact ⟨mark, rfl⟩

/-- What is in a directory can be replaced, unless it is a directory. -/
theorem exists_replace (found : files.slot? path = some place)
    (other : files.nodeAt? place ≠ some .directory) (content : ByteArray) :
    ∃ after, files.replace path content = .ok after := by
  rcases slot?_eq_some_iff.1 found with ⟨name, directory, named, located, isDirectory, rfl⟩
  rw [nodeAt?] at isDirectory other
  simp only [replace, named, located, bind, Except.bind, isDirectory]
  generalize files.entryAt? (directory ++ [name]) = entry at other
  rcases entry with _ | ⟨node, mark⟩
  · exact ⟨_, rfl⟩
  · cases node with
    | directory => exact absurd rfl other
    | file old => exact ⟨_, rfl⟩
    | link target => exact ⟨_, rfl⟩

/-- A new file takes the place of one that is not marked. -/
theorem replace_of_file {old : ByteArray} (found : files.slot? path = some place)
    (file : files.entryAt? place = some { node := .file old }) (content : ByteArray) :
    files.replace path content = .ok (files.put place { node := .file content }) := by
  rcases slot?_eq_some_iff.1 found with ⟨name, directory, named, located, isDirectory, rfl⟩
  rw [nodeAt?] at isDirectory
  simp only [replace, named, located, bind, Except.bind, isDirectory, file]

theorem replace_eq_ok (replaced : files.replace path content = .ok after) :
    ∃ place mark, files.slot? path = some place ∧ files.nodeAt? place ≠ some .directory ∧
      after = files.put place { node := .file content, isReadOnly := mark } := by
  rw [replace] at replaced
  split at replaced
  case h_2 => cases replaced
  case h_1 name named =>
    rw [bind_eq_ok_iff] at replaced
    rcases replaced with ⟨directory, located, replaced⟩
    have slot (above : files.nodeAt? directory = some .directory) :
        files.slot? path = some (directory ++ [name]) :=
      slot?_eq_some_iff.2 ⟨name, directory, named, located, above, rfl⟩
    refine ⟨directory ++ [name], ?_⟩
    dsimp only at replaced
    split at replaced
    case h_1 => cases replaced
    case h_2 old mark above found =>
      cases replaced
      exact ⟨mark, slot above, by simp [nodeAt?, found], rfl⟩
    case h_3 above notDirectory _ =>
      cases replaced
      refine ⟨false, slot above, ?_, rfl⟩
      intro isDirectory
      rw [nodeAt?, Option.map_eq_some_iff] at isDirectory
      rcases isDirectory with ⟨⟨node, mark⟩, found, rfl⟩
      exact notDirectory mark found
    case h_4 => cases replaced
    case h_5 => cases replaced

theorem remove_eq_ok (removed : files.remove path = .ok after) :
    ∃ place, files.locate false path = .ok place ∧ files.nodeAt? place ≠ some .directory ∧
      files.nodeAt? place ≠ none ∧ after = files.erase place := by
  rw [remove, bind_eq_ok_iff] at removed
  rcases removed with ⟨place, located, removed⟩
  refine ⟨place, located, ?_⟩
  rw [← nodeAt?] at removed
  cases node : files.nodeAt? place with
  | none => simp [node] at removed
  | some node_ =>
      cases node_ with
      | directory => simp [node] at removed
      | file content =>
          simp only [node, Except.ok.injEq] at removed
          exact ⟨by simp, by simp, removed.symm⟩
      | link target =>
          simp only [node, Except.ok.injEq] at removed
          exact ⟨by simp, by simp, removed.symm⟩

end

/-! ## Making directories -/

/-- One file system has all entries of another one, and directories at other places. -/
structure Extends (after before : FileSystem) : Prop where
  entry : ∀ place, after.entryAt? place = before.entryAt? place ∨
    before.entryAt? place = none ∧ after.nodeAt? place = some .directory
  workingPlace : after.workingPlace = before.workingPlace

section

variable {before middle after : FileSystem} {place : Place} {path : Path}

theorem Extends.refl (files : FileSystem) : files.Extends files where
  entry _ := Or.inl rfl
  workingPlace := rfl

theorem Extends.kept (extended : after.Extends before) {entry : Entry}
    (found : before.entryAt? place = some entry) : after.entryAt? place = some entry := by
  rcases extended.entry place with same | ⟨none, -⟩
  · rw [same, found]
  · rw [none] at found
    cases found

theorem Extends.kept_node (extended : after.Extends before) {node : Node}
    (found : before.nodeAt? place = some node) : after.nodeAt? place = some node := by
  rw [nodeAt?, Option.map_eq_some_iff] at found
  rcases found with ⟨entry, found, same⟩
  rw [nodeAt?_of_entryAt? (extended.kept found), same]

theorem Extends.trans (later : after.Extends middle) (earlier : middle.Extends before) :
    after.Extends before where
  entry place := by
    rcases earlier.entry place with same | ⟨none, directory⟩
    · rw [← same]
      exact later.entry place
    · exact Or.inr ⟨none, later.kept_node directory⟩
  workingPlace := later.workingPlace.trans earlier.workingPlace

theorem Extends.includes (extended : after.Extends before) : after.Includes before where
  directory _ found := extended.kept_node found
  link _ _ found := extended.kept_node found
  workingPlace := extended.workingPlace

/-- What is there besides the new directories was there before. -/
theorem Extends.entry_iff (extended : after.Extends before) {entry : Entry}
    (notDirectory : entry.node ≠ .directory) :
    after.entryAt? place = some entry ↔ before.entryAt? place = some entry := by
  constructor
  · intro found
    rcases extended.entry place with same | ⟨-, directory⟩
    · rw [← same, found]
    · rw [nodeAt?_of_entryAt? found, Option.some.injEq] at directory
      exact absurd directory notDirectory
  · exact extended.kept

theorem Extends.node_iff (extended : after.Extends before) {node : Node}
    (notDirectory : node ≠ .directory) :
    after.nodeAt? place = some node ↔ before.nodeAt? place = some node := by
  constructor
  · intro found
    rw [nodeAt?, Option.map_eq_some_iff] at found
    rcases found with ⟨entry, found, rfl⟩
    exact nodeAt?_of_entryAt? ((extended.entry_iff notDirectory).1 found)
  · exact extended.kept_node

theorem makeDirectory_eq_ok (made : before.makeDirectory path = .ok after) :
    ∃ place, before.locate false path = .ok place ∧ before.entryAt? place = none ∧
      after = before.put place { node := .directory } := by
  rw [makeDirectory, bind_eq_ok_iff] at made
  rcases made with ⟨place, located, made⟩
  cases found : before.entryAt? place with
  | some entry => simp [found] at made
  | none =>
      simp only [found, Except.ok.injEq] at made
      exact ⟨place, located, found, made.symm⟩

/-- Where nothing is, but the way there is open, one directory is made. -/
theorem makeDirectories_of_vacant (located : before.locate false path = .ok place)
    (vacant : before.entryAt? place = none) :
    before.makeDirectories path = (.ok (), before.put place { node := .directory }) := by
  have made : before.makeDirectory path = .ok (before.put place { node := .directory }) := by
    rw [makeDirectory, located]
    simp only [bind, Except.bind, vacant]
  have notEmpty : path ≠ .empty := by
    rintro rfl
    simp [locate] at located
  rw [makeDirectories, if_neg notEmpty, made]
  simp only [reduceCtorEq, if_false, ensureDirectory, made]

theorem extends_put_directory (none : before.entryAt? place = none) :
    (before.put place { node := .directory }).Extends before where
  entry other := by
    by_cases same : other = place
    · subst same
      refine Or.inr ⟨none, nodeAt?_put_self ?_⟩
      rintro rfl
      simp [entryAt?] at none
    · exact Or.inl (entryAt?_put_of_ne same)
  workingPlace := rfl

theorem extends_ensureDirectory (files : FileSystem) (path : Path) :
    (files.ensureDirectory path).2.Extends files := by
  rw [ensureDirectory]
  cases made : files.makeDirectory path with
  | error fault => exact .refl files
  | ok after =>
      rcases makeDirectory_eq_ok made with ⟨place, -, none, rfl⟩
      exact extends_put_directory none

theorem extends_makeDirectories (files : FileSystem) (path : Path) :
    (files.makeDirectories path).2.Extends files := by
  induction deep : path.depth using Nat.strongRecOn generalizing path with
  | _ depth shallower =>
      rw [makeDirectories]
      split
      case isTrue => exact .refl files
      case isFalse =>
        split
        case h_2 => exact extends_ensureDirectory files path
        case h_1 =>
          rw [if_pos rfl]
          split
          case h_1 => exact .refl files
          case h_2 parent up =>
            have ih := shallower parent.depth (deep ▸ Path.depth_parent_lt up) parent rfl
            split
            case h_1 above made =>
              rw [made] at ih
              exact (extends_ensureDirectory above path).trans ih
            case h_2 fault above made =>
              rw [made] at ih
              exact ih

/-- In a directory that is there, no other place changes. -/
theorem makeDirectories_child {files : FileSystem} {base : Path} {name : String}
    {directory other : Place} (notEmpty : base ≠ .empty)
    (found : files.locate true base = .ok directory)
    (isDirectory : files.nodeAt? directory = some .directory) (named : Path.IsName name)
    (different : other ≠ directory ++ [name]) :
    (files.makeDirectories (base.child name)).2.entryAt? other = files.entryAt? other := by
  have located : files.locate false (base.child name) = .ok (directory ++ [name]) :=
    locate_child_of_directory notEmpty found isDirectory named nofun
  have reached : files.makeDirectory (base.child name) ≠ .error .notFound := by
    rw [makeDirectory, located]
    simp only [bind, Except.bind]
    cases files.entryAt? (directory ++ [name]) <;> simp
  rw [makeDirectories]
  split
  case isTrue => rfl
  case isFalse =>
    split
    case h_1 missing => exact absurd missing reached
    case h_2 =>
      rw [if_neg Bool.false_ne_true, ensureDirectory]
      cases made : files.makeDirectory (base.child name) with
      | error fault => rfl
      | ok after =>
          rcases makeDirectory_eq_ok made with ⟨place, again, -, rfl⟩
          rw [located] at again
          cases again
          exact entryAt?_put_of_ne different

end

end KeyLayers.FileSystem
