import KeyLayers.FileSystem.Edit
import KeyLayers.Proofs.FileSystem.Names

/-!
# Files that are taken away

Where entries are taken away, all others stay as they are.  What a path leads to stays
as well, unless it is taken away itself or the path leads over a link that is
(`FileSystem.Crosses`).
-/

namespace KeyLayers

namespace FileSystem

/-- The files without the entries at some places. -/
def without (files : FileSystem) (places : List Place) : FileSystem :=
  files.eraseWhere fun place => places.contains place

section

variable {files : FileSystem} {places : List Place} {place : Place}

@[simp]
theorem without_nil (files : FileSystem) : files.without [] = files := by
  cases files
  simp [without, eraseWhere]

theorem without_cons (files : FileSystem) (place : Place) (places : List Place) :
    files.without (place :: places) = (files.erase place).without places := by
  simp only [without, eraseWhere, erase, FileSystem.mk.injEq, List.filter_filter, and_true]
  apply List.filter_congr
  intro item _
  rw [List.contains_cons, Bool.not_or, bne, Bool.and_comm]

theorem entryAt?_without (some_ : place ≠ []) :
    (files.without places).entryAt? place =
      if place ∈ places then none else files.entryAt? place := by
  ext entry
  rw [entryAt?_eq_some_iff some_, without, eraseWhere, List.mem_filter]
  split
  case isTrue gone => simp [gone]
  case isFalse stays => simp [stays, entryAt?_eq_some_iff some_]

theorem entryAt?_without_of_not_mem (stays : place ∉ places) :
    (files.without places).entryAt? place = files.entryAt? place := by
  by_cases root : place = []
  · rw [root, entryAt?, entryAt?, if_pos rfl, if_pos rfl]
  · rw [entryAt?_without root, if_neg stays]

theorem nodeAt?_without_of_not_mem (stays : place ∉ places) :
    (files.without places).nodeAt? place = files.nodeAt? place := by
  rw [nodeAt?, nodeAt?, entryAt?_without_of_not_mem stays]

theorem nodeAt?_without_of_mem (some_ : place ≠ []) (gone : place ∈ places) :
    (files.without places).nodeAt? place = none := by
  rw [nodeAt?_eq_none_iff, entryAt?_without some_, if_pos gone]

theorem nodeAt?_of_without {node : Node}
    (found : (files.without places).nodeAt? place = some node) :
    files.nodeAt? place = some node := by
  by_cases root : place = []
  · rwa [root, nodeAt?_root] at found ⊢
  · by_cases gone : place ∈ places
    · rw [nodeAt?_without_of_mem root gone] at found
      cases found
    · rwa [nodeAt?_without_of_not_mem gone] at found

theorem includes_without (files : FileSystem) (places : List Place) :
    files.Includes (files.without places) where
  workingPlace := rfl
  directory _ := nodeAt?_of_without
  link _ _ := nodeAt?_of_without

end

/-! ## Where paths lead -/

/-- Whether a link at one of some places is followed on the way that segments lead. -/
inductive CrossesFrom (files : FileSystem) (places : List Place) :
    Nat → Place → List String → Prop where
  | idle {links : Nat} {start : Place} {segment : String} {rest : List String}
      (idle : Path.isIdle segment = true) (later : CrossesFrom files places links start rest) :
      CrossesFrom files places links start (segment :: rest)
  | up {links : Nat} {start : Place} {rest : List String}
      (later : CrossesFrom files places links start.dropLast rest) :
      CrossesFrom files places links start (".." :: rest)
  | enter {links : Nat} {start : Place} {segment : String} {rest : List String}
      (named : Path.IsName segment)
      (node : files.nodeAt? (start ++ [segment]) = some .directory)
      (later : CrossesFrom files places links (start ++ [segment]) rest) :
      CrossesFrom files places links start (segment :: rest)
  | here {links : Nat} {start : Place} {segment : String} {rest : List String} {target : Path}
      (named : Path.IsName segment)
      (node : files.nodeAt? (start ++ [segment]) = some (.link target))
      (among : start ++ [segment] ∈ places) :
      CrossesFrom files places links start (segment :: rest)
  | follow {links : Nat} {start : Place} {segment : String} {rest : List String} {target : Path}
      (named : Path.IsName segment)
      (node : files.nodeAt? (start ++ [segment]) = some (.link target))
      (later : CrossesFrom files places links (if target.isAbsolute then [] else start)
        (target.segments ++ rest)) :
      CrossesFrom files places (links + 1) start (segment :: rest)

/-- Whether a path leads over a link at one of some places. -/
def Crosses (files : FileSystem) (places : List Place) (path : Path) : Prop :=
  files.CrossesFrom places greatestLinks (files.origin path) path.segments

section

variable {files : FileSystem} {places : List Place} {place : Place} {path : Path}

/-- Nothing is crossed where there is no link. -/
theorem not_crosses_of_no_link
    (noLink : ∀ place ∈ places, ∀ target, files.nodeAt? place ≠ some (.link target)) :
    ¬ files.Crosses places path := by
  rw [Crosses]
  generalize greatestLinks = links, files.origin path = start, path.segments = segments
  intro crosses
  induction crosses with
  | idle idle later ih => exact ih
  | up later ih => exact ih
  | enter named node later ih => exact ih
  | here named node among => exact noLink _ among _ node
  | follow named node later ih => exact ih

theorem walk_without_iff {links : Nat} {start last : Place} {segments : List String}
    (notDirectory : ∀ place ∈ places, files.nodeAt? place ≠ some .directory)
    (stays : ¬ files.CrossesFrom places links start segments) :
    (files.without places).walk true links start segments = .ok last ↔
      files.walk true links start segments = .ok last := by
  induction links, segments using segments_induction generalizing start with
  | nil links => rw [walk_nil, walk_nil]
  | idle links segment rest idle ih =>
      rw [walk_idle idle, walk_idle idle]
      exact ih fun crosses => stays (.idle idle crosses)
  | up links rest ih =>
      rw [walk_up, walk_up]
      exact ih fun crosses => stays (.up crosses)
  | name links segment rest named ih fewer =>
      rw [walk_name named, walk_name named]
      by_cases gone : start ++ [segment] ∈ places
      · -- a file is in the way as much as nothing is
        rw [nodeAt?_without_of_mem (by simp) gone]
        cases node : files.nodeAt? (start ++ [segment]) with
        | none => rfl
        | some node' =>
            cases node' with
            | directory => exact absurd node (notDirectory _ gone)
            | link target => exact absurd (.here named node gone) stays
            | file content => cases rest <;> simp
      · rw [nodeAt?_without_of_not_mem gone]
        cases node : files.nodeAt? (start ++ [segment]) with
        | none => rfl
        | some node' =>
            cases node' with
            | file content => rfl
            | directory => exact ih fun crosses => stays (.enter named node crosses)
            | link target =>
                cases links with
                | zero => rfl
                | succ links =>
                    simp only [Bool.not_true, Bool.and_false, Bool.false_eq_true, if_false]
                    exact fewer links _ rfl fun crosses => stays (.follow named node crosses)

theorem locate_without_iff
    (notDirectory : ∀ place ∈ places, files.nodeAt? place ≠ some .directory)
    (stays : ¬ files.Crosses places path) :
    (files.without places).locate true path = .ok place ↔
      files.locate true path = .ok place := by
  by_cases empty : path = .empty
  · rw [locate, locate, if_pos empty, if_pos empty]
  · rw [locate_eq_walk empty, locate_eq_walk empty]
    exact walk_without_iff notDirectory stays

/-- What a path leads to stays, unless it is taken away or a link on the way is. -/
theorem find_without_iff {entry : Entry}
    (notDirectory : ∀ place ∈ places, files.nodeAt? place ≠ some .directory)
    (stays : ¬ files.Crosses places path)
    (other : ∀ place ∈ places, files.locate true path ≠ .ok place) :
    (files.without places).find path = .ok entry ↔ files.find path = .ok entry := by
  rw [find_eq_ok_iff, find_eq_ok_iff]
  refine exists_congr fun place => ?_
  rw [locate_without_iff notDirectory stays]
  refine and_congr_right fun located => ?_
  rw [entryAt?_without_of_not_mem fun gone => other place gone located]

end

end FileSystem

end KeyLayers
