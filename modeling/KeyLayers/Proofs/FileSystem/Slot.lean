import KeyLayers.Proofs.FileSystem.Walk

/-!
# The place of a file in its directory

The last name of a path stands for an entry of the directory that the rest of
the path leads to.  Where that directory is found, everything about the path and
about its neighbours is decided in it: the same way leads to all of them.
-/

namespace KeyLayers

namespace Path

/-! ## The directory of a path -/

theorem exists_dropIdleEnd (segments : List String) :
    ∃ idles, segments = dropIdleEnd segments ++ idles ∧ ∀ idle ∈ idles, isIdle idle := by
  induction segments with
  | nil => exact ⟨[], rfl, nofun⟩
  | cons segment rest ih =>
      rcases ih with ⟨idles, split, idle⟩
      rw [dropIdleEnd]
      cases kept : dropIdleEnd rest with
      | cons first more =>
          rw [kept] at split
          exact ⟨idles, by simp [split], idle⟩
      | nil =>
          rw [kept, List.nil_append] at split
          by_cases isIdle : isIdle segment = true
          · refine ⟨segment :: idles, by simp [isIdle, split], ?_⟩
            intro other member
            rcases List.mem_cons.1 member with rfl | later
            · exact isIdle
            · exact idle other later
          · exact ⟨idles, by simp [isIdle, split], idle⟩

theorem live_dropIdleEnd (segments : List String) :
    live (dropIdleEnd segments) = live segments := by
  rcases exists_dropIdleEnd segments with ⟨idles, split, idle⟩
  have all : live segments = live (dropIdleEnd segments ++ idles) := congrArg live split
  rw [all, live_append, live_of_idle idle, List.append_nil]

theorem directory_ne_empty (path : Path) : path.directory ≠ empty := by
  rw [directory]
  split
  · split
    · decide
    · assumption
  · decide

theorem isAbsolute_cons {first : String} {rest : List String} (some : rest ≠ []) :
    isAbsolute ⟨first :: rest⟩ = (first == "") := by
  cases rest with
  | nil => exact absurd rfl some
  | cons next others =>
      by_cases root : first = ""
      · simp [isAbsolute, root]
      · simp [isAbsolute, root]

/-- A path of one name is in the directory that paths start from. -/
theorem directory_of_first {first : String} {rest : List String} (notEmpty : first ≠ "")
    (none : dropIdleEnd rest = []) : directory ⟨first :: rest⟩ = here := by
  simp only [directory, parent?, none, if_neg notEmpty, if_true]

theorem directory_of_more (first : String) {rest : List String}
    (some : dropIdleEnd rest ≠ []) :
    (directory ⟨first :: rest⟩).isAbsolute = (first == "") ∧
      live (directory ⟨first :: rest⟩).segments =
        live (first :: (dropIdleEnd rest).dropLast) := by
  cases kept : dropIdleEnd rest with
  | nil => exact absurd kept some
  | cons second more =>
      rw [live_cons first, ← live_dropIdleEnd (second :: more).dropLast, ← live_cons first]
      cases above : dropIdleEnd (second :: more).dropLast with
      | cons top others =>
          have parent_eq : directory ⟨first :: rest⟩ = ⟨first :: top :: others⟩ := by
            simp [directory, parent?, kept, above, empty]
          rw [parent_eq]
          exact ⟨isAbsolute_cons (by simp), rfl⟩
      | nil =>
          by_cases root : first = ""
          · have parent_eq : directory ⟨first :: rest⟩ = ⟨["", ""]⟩ := by
              simp [directory, parent?, kept, above, root, empty]
            rw [parent_eq]
            simp [root, isAbsolute, live, isIdle]
          · have parent_eq : directory ⟨first :: rest⟩ = ⟨[first]⟩ := by
              simp [directory, parent?, kept, above, root, empty]
            rw [parent_eq]
            simp [root, isAbsolute]

/-- A path that ends in a name is its directory, that name, and nothing of meaning after it. -/
theorem segments_of_name {path : Path} {name : String} (found : path.name? = some name) :
    IsName name ∧ path.directory.isAbsolute = path.isAbsolute ∧
      ∃ front idles, path.segments = front ++ name :: idles ∧
        (∀ idle ∈ idles, isIdle idle) ∧ live front = live path.directory.segments := by
  rcases path with ⟨segments⟩
  cases segments with
  | nil => simp [name?] at found
  | cons first rest =>
      rcases exists_dropIdleEnd rest with ⟨idles, split, idle⟩
      simp only [name?, Option.ite_none_left_eq_some, Option.some.injEq, Bool.or_eq_true,
        beq_iff_eq, not_or] at found
      rcases found with ⟨⟨notIdle, notUp⟩, same⟩
      rw [same] at notIdle notUp
      have named : IsName name := ⟨by simpa using notIdle, notUp⟩
      by_cases none : dropIdleEnd rest = []
      · rw [none, List.nil_append] at split
        rw [none] at same
        have first_eq : first = name := same
        subst first_eq
        have some : first ≠ "" := by
          intro none
          simp [none, isIdle] at notIdle
        rw [directory_of_first some none]
        refine ⟨named, by simp [isAbsolute, here, some], [], idles, by simp [split], idle, ?_⟩
        decide
      · have kept_eq : dropIdleEnd rest = (dropIdleEnd rest).dropLast ++ [name] := by
          rw [List.getLast?_eq_some_getLast none, Option.getD_some] at same
          rw [← same, List.dropLast_concat_getLast]
        have rest_ne : rest ≠ [] := by
          intro empty
          simp [empty, dropIdleEnd] at none
        rcases directory_of_more first none with ⟨absolute, front_eq⟩
        refine ⟨named, by rw [absolute, isAbsolute_cons rest_ne],
          first :: (dropIdleEnd rest).dropLast, idles, ?_, idle, front_eq.symm⟩
        rw [List.cons_append, List.append_cons, ← kept_eq, ← split]

/-- What means nothing is not at the end of a path that ends in a name. -/
theorem idles_eq_nil {front idles : List String} {name last : String}
    (idle : ∀ idle ∈ idles, isIdle idle)
    (ends : (front ++ name :: idles).getLast? = some last) (named : IsName last) :
    idles = [] := by
  rcases List.eq_nil_or_concat idles with none | ⟨more, segment, split⟩
  · exact none
  · rw [split, List.concat_eq_append, ← List.cons_append, ← List.append_assoc,
      List.getLast?_concat, Option.some.injEq] at ends
    have isIdle := idle segment (by simp [split])
    rw [ends, named.1] at isIdle
    cases isIdle

/-- A name at the very end of a path is its last name. -/
theorem name?_of_getLast? {path : Path} {name : String}
    (ends : path.segments.getLast? = some name) (named : IsName name) :
    path.name? = some name := by
  rcases path with ⟨segments⟩
  cases segments with
  | nil => cases ends
  | cons first rest =>
      rcases exists_dropIdleEnd rest with ⟨idles, split, idle⟩
      have kept : dropIdleEnd rest = rest := by
        rcases List.eq_nil_or_concat idles with none | ⟨more, segment, more_eq⟩
        · rw [none, List.append_nil] at split
          exact split.symm
        · rw [more_eq, List.concat_eq_append, ← List.append_assoc] at split
          rw [split, ← List.cons_append, List.getLast?_concat, Option.some.injEq] at ends
          have isIdle := idle segment (by simp [more_eq])
          rw [ends, named.1] at isIdle
          cases isIdle
      rw [List.getLast?_cons, Option.some.injEq] at ends
      simp [name?, kept, ends, named.1, named.2]

theorem isAbsolute_concat (front : List String) (last : String) :
    isAbsolute ⟨front ++ [last]⟩ = (front.head? == some "") := by
  cases front with
  | nil => simp [isAbsolute]
  | cons first rest =>
      rw [List.cons_append, isAbsolute_cons (by simp)]
      simp

/-- The path of an entry is the path of its directory and the name. -/
theorem segments_child (base : Path) {name : String} (named : IsName name) :
    (base.child name).isAbsolute = base.isAbsolute ∧
      ∃ front, (base.child name).segments = front ++ [name] ∧
        live front = live base.segments := by
  rcases base with ⟨segments⟩
  have relative : isAbsolute ⟨[name]⟩ = false := by simp [isAbsolute]
  simp only [child, join, relative, Bool.false_eq_true, if_false]
  rcases List.eq_nil_or_concat segments with rfl | ⟨front, last, split⟩
  · exact ⟨relative, [], rfl, rfl⟩
  · rw [List.concat_eq_append] at split
    subst split
    by_cases empty : last = ""
    · simp only [empty, List.getLast?_concat, if_true, List.dropLast_concat,
        isAbsolute_concat, true_and]
      refine ⟨front, rfl, ?_⟩
      simp [live, isIdle]
    · simp only [List.getLast?_concat, Option.some.injEq, empty, if_false, isAbsolute_concat]
      refine ⟨?_, _, rfl, rfl⟩
      cases front with
      | nil => simp [empty]
      | cons => rfl

end Path

namespace FileSystem

/-! ## Locating what is in a directory -/

/-- Where a path begins. -/
def origin (files : FileSystem) (path : Path) : Place :=
  if path.isAbsolute then [] else files.workingPlace

section

variable {files : FileSystem} {path : Path} {name : String}

theorem locate_eq_walk (notEmpty : path ≠ .empty) (follow : Bool) :
    files.locate follow path =
      files.walk follow greatestLinks (files.origin path) path.segments := by
  rw [locate, if_neg notEmpty, origin]

theorem locate_child (named : Path.IsName name) (follow : Bool) :
    files.locate follow (path.child name) =
      files.walk follow greatestLinks (files.origin path) (path.segments ++ [name]) := by
  rcases path.segments_child named with ⟨absolute, front, split, same⟩
  rw [locate_eq_walk, origin, absolute, split,
    walk_congr_front files follow (by simp) _ _ same, origin]
  intro none
  have empty := congrArg Path.segments none
  simp [split, Path.empty, List.append_eq_singleton_iff] at empty
  simp [empty, Path.IsName, Path.isIdle] at named

theorem locate_of_name (found : path.name? = some name) :
    ∃ front idles, path.segments = front ++ name :: idles ∧ (∀ idle ∈ idles, Path.isIdle idle) ∧
      ∀ follow, files.locate follow path =
        files.walk follow greatestLinks (files.origin path.directory)
          (path.directory.segments ++ name :: idles) := by
  rcases Path.segments_of_name found with ⟨named, absolute, front, idles, split, idle, same⟩
  refine ⟨front, idles, split, idle, ?_⟩
  intro follow
  rw [locate_eq_walk, origin, split, walk_congr_front files follow (by simp) _ _ same, origin,
    absolute]
  rintro rfl
  cases found

/-- A path that ends in its last name is the path of its directory and that name. -/
theorem locate_of_last (found : path.name? = some name)
    (last : path.segments.getLast? = path.name?) (follow : Bool) :
    files.locate follow path =
      files.walk follow greatestLinks (files.origin path.directory)
        (path.directory.segments ++ [name]) := by
  rcases locate_of_name found with ⟨front, idles, split, idle, reach⟩
  rw [found, split] at last
  have none := Path.idles_eq_nil idle last (Path.segments_of_name found).1
  rw [reach, none]

end

section

variable {files : FileSystem} {base : Path} {name : String} {directory place : Place}

/-- What is in a directory that is found has its own place there. -/
theorem locate_child_of_directory (notEmpty : base ≠ .empty)
    (found : files.locate true base = .ok directory)
    (isDirectory : files.nodeAt? directory = some .directory) (named : Path.IsName name)
    {follow : Bool}
    (ends : follow = true →
      ∀ target, files.nodeAt? (directory ++ [name]) ≠ some (.link target)) :
    files.locate follow (base.child name) = .ok (directory ++ [name]) := by
  rw [locate_eq_walk notEmpty] at found
  rcases way_of_directory found isDirectory with ⟨left, way⟩
  rw [locate_child named, way.walk_append (Or.inr (by simp))]
  exact walk_last named ends

theorem exists_of_locate_child (notEmpty : base ≠ .empty) (named : Path.IsName name) {follow : Bool}
    (found : files.locate follow (base.child name) = .ok place) :
    ∃ directory left, Way files greatestLinks (files.origin base) base.segments left directory ∧
      files.locate true base = .ok directory ∧
        files.walk follow left directory [name] = .ok place := by
  rw [locate_child named] at found
  rcases way_of_walk (by simp) found with ⟨left, directory, way⟩
  rw [way.walk_append (Or.inr (by simp))] at found
  exact ⟨directory, left, way, by rw [locate_eq_walk notEmpty, way.walk_eq], found⟩

/-- Unless a link is followed, what is in a directory has the name it is asked for. -/
theorem exists_of_locate_child_false (notEmpty : base ≠ .empty) (named : Path.IsName name)
    (found : files.locate false (base.child name) = .ok place) :
    ∃ directory, files.locate true base = .ok directory ∧ place = directory ++ [name] := by
  rcases exists_of_locate_child notEmpty named found with ⟨directory, left, -, reached, last⟩
  rw [walk_last named (by simp)] at last
  cases last
  exact ⟨directory, reached, rfl⟩

end

/-! ## The place of the last name -/

/-- The place of the last name of a path in the directory that the rest leads to. -/
def slot? (files : FileSystem) (path : Path) : Option Place :=
  match path.name?, files.locate true path.directory with
  | some name, .ok directory =>
      if files.nodeAt? directory = some .directory then some (directory ++ [name]) else none
  | _, _ => none

section

variable {files larger smaller : FileSystem} {path : Path} {place other : Place}

theorem slot?_eq_some_iff :
    files.slot? path = some place ↔
      ∃ name directory, path.name? = some name ∧
        files.locate true path.directory = .ok directory ∧
          files.nodeAt? directory = some .directory ∧ place = directory ++ [name] := by
  rw [slot?]
  cases path.name? with
  | none => simp
  | some name =>
      cases files.locate true path.directory with
      | error fault => simp
      | ok directory => simp [eq_comm]

theorem getLast?_of_slot? (found : files.slot? path = some place) :
    place.getLast? = path.name? := by
  rcases slot?_eq_some_iff.1 found with ⟨name, directory, named, -, -, rfl⟩
  rw [named, List.getLast?_concat]

/-- What has another name is elsewhere, whatever directory it is in. -/
theorem ne_of_slot? (found : files.slot? path = some place) {own name : String}
    (named : path.name? = some own) (different : name ≠ own) (directory : Place) :
    directory ++ [name] ≠ place := by
  rintro rfl
  have last := getLast?_of_slot? found
  rw [List.getLast?_concat, named, Option.some.injEq] at last
  exact different last

theorem Includes.slot?_eq (includes : larger.Includes smaller)
    (found : smaller.slot? path = some place) : larger.slot? path = some place := by
  rw [slot?_eq_some_iff] at found ⊢
  rcases found with ⟨name, directory, named, located, isDirectory, same⟩
  have still := includes.directory directory isDirectory
  refine ⟨name, directory, named, ?_, still, same⟩
  apply includes.locate_eq _ located
  simp [still]

/-- With no link and no directory in its place, a path leads there or nowhere. -/
theorem eq_of_locate_of_slot (found : files.slot? path = some place)
    (directory : files.nodeAt? place ≠ some .directory)
    (link : ∀ target, files.nodeAt? place ≠ some (.link target)) {follow : Bool}
    (reached : files.locate follow path = .ok other) : other = place := by
  rcases slot?_eq_some_iff.1 found with ⟨name, above, named, located, isDirectory, rfl⟩
  rcases locate_of_name named with ⟨front, idles, -, -, reach⟩
  rw [locate_eq_walk path.directory_ne_empty] at located
  rcases way_of_directory located isDirectory with ⟨left, way⟩
  rw [reach, way.walk_append (Or.inr (by simp)),
    walk_name (Path.segments_of_name named).1] at reached
  cases node : files.nodeAt? (above ++ [name]) with
  | none =>
      simp only [node] at reached
      split at reached
      · cases reached
        rfl
      · cases reached
  | some entry =>
      cases entry with
      | directory => exact absurd node directory
      | link target => exact absurd node (link target)
      | file content =>
          simp only [node] at reached
          split at reached
          · cases reached
            rfl
          · cases reached

/-- A path that ends in its last name leads to the place of that name. -/
theorem locate_of_slot (found : files.slot? path = some place)
    (last : path.segments.getLast? = path.name?) {follow : Bool}
    (ends : follow = true → ∀ target, files.nodeAt? place ≠ some (.link target)) :
    files.locate follow path = .ok place := by
  rcases slot?_eq_some_iff.1 found with ⟨name, above, named, located, isDirectory, rfl⟩
  rw [locate_eq_walk path.directory_ne_empty] at located
  rcases way_of_directory located isDirectory with ⟨left, way⟩
  rw [locate_of_last named last, way.walk_append (Or.inr (by simp))]
  exact walk_last (Path.segments_of_name named).1 ends

/-- A path of a name alone has its place in the directory that paths begin in. -/
theorem slot?_of_name_alone {name : String} (named : path.name? = some name)
    (alone : path.directory = .here)
    (home : files.nodeAt? files.workingPlace = some .directory) :
    files.slot? path = some (files.workingPlace ++ [name]) := by
  have begins : files.locate true .here = .ok files.workingPlace := by
    rw [locate_eq_walk (by decide)]
    exact (walk_idle (by decide)).trans walk_nil
  exact slot?_eq_some_iff.2 ⟨name, files.workingPlace, named, alone ▸ begins, home, rfl⟩

end

end FileSystem

end KeyLayers
