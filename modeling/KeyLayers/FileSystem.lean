import KeyLayers.FileSystem.Path

/-!
# File systems

A file system holds one entry at each of some places: a file, a directory, or a
link.  A path is followed from the root or from the working directory, and each
link on the way is replaced by its target.

An operation that fails leaves the file system as it was; only making several
directories at once can get stuck half-way.  What an operation does is said by
what it does to the entries: `entryAt?_put` and `entryAt?_erase`.
-/

namespace KeyLayers

/-- The names on the way from the root to an entry. -/
abbrev Place := List String

/-- What an entry is. -/
inductive Node where
  | file (content : ByteArray)
  | directory
  | link (target : Path)

instance : DecidableEq Node
  | .file left, .file right =>
      if same : left.data = right.data then
        .isTrue (by cases left; cases right; simp_all)
      else .isFalse (by intro equal; cases equal; exact same rfl)
  | .directory, .directory => .isTrue rfl
  | .link left, .link right =>
      if same : left = right then .isTrue (by rw [same])
      else .isFalse (by intro equal; cases equal; exact same rfl)
  | .file _, .directory => .isFalse nofun
  | .file _, .link _ => .isFalse nofun
  | .directory, .file _ => .isFalse nofun
  | .directory, .link _ => .isFalse nofun
  | .link _, .file _ => .isFalse nofun
  | .link _, .directory => .isFalse nofun

/-- Something that has a place in a file system. -/
structure Entry where
  node : Node
  /-- Nobody is meant to write here; nothing but a report comes of it. -/
  isReadOnly : Bool := false
deriving DecidableEq

/-- Entries at different places below the root, and the directory that paths start from. -/
structure FileSystem where
  entries : List (Place × Entry) := []
  workingPlace : Place := []
  nodup : (entries.map Prod.fst).Nodup := by simp

namespace FileSystem

/-- Why an operation on files fails. -/
inductive Fault where
  | notFound
  | notADirectory
  | isADirectory
  | alreadyExists
  /-- A path leads through too many links. -/
  | tooManyLinks
  /-- A file that should be text is not written in UTF-8. -/
  | invalidText
deriving DecidableEq, Repr

/-- The fault in words. -/
def Fault.message : Fault → String
  | notFound => "No such file or directory (os error 2)"
  | notADirectory => "Not a directory (os error 20)"
  | isADirectory => "Is a directory (os error 21)"
  | alreadyExists => "File exists (os error 17)"
  | tooManyLinks => "Too many levels of symbolic links (os error 40)"
  | invalidText => "stream did not contain valid UTF-8"

variable (files : FileSystem)

/-! ## Entries -/

/-- The entry at a place; the root is a directory. -/
def entryAt? (place : Place) : Option Entry :=
  if place = [] then some { node := .directory }
  else (files.entries.find? (·.1 == place)).map Prod.snd

/-- Takes away the entry at a place. -/
def erase (place : Place) : FileSystem where
  entries := files.entries.filter (·.1 != place)
  workingPlace := files.workingPlace
  nodup := files.nodup.sublist (List.filter_sublist.map _)

/-- Puts an entry at a place, instead of the one that is there. -/
def put (place : Place) (entry : Entry) : FileSystem where
  entries := files.entries.filter (·.1 != place) ++ [(place, entry)]
  workingPlace := files.workingPlace
  nodup := by
    have kept := files.nodup.sublist ((List.filter_sublist (p := (·.1 != place))).map _)
    simp only [List.map_append, List.nodup_append]
    refine ⟨kept, by simp, ?_⟩
    simp only [List.mem_map, List.mem_filter]
    grind

theorem entryAt?_erase (place other : Place) :
    (files.erase place).entryAt? other =
      if other = place ∧ other ≠ [] then none else files.entryAt? other := by
  by_cases root : other = []
  · simp [entryAt?, root]
  · by_cases same : other = place
    · subst same
      simp [entryAt?, erase, root, List.find?_filter]
    · simp only [entryAt?, erase, root, same, if_false, false_and, List.find?_filter]
      congr 2
      funext item
      by_cases hit : item.1 = other <;> simp [hit, same]

theorem entryAt?_put (place other : Place) (entry : Entry) :
    (files.put place entry).entryAt? other =
      if other = place ∧ other ≠ [] then some entry else files.entryAt? other := by
  have erased := files.entryAt?_erase place other
  by_cases root : other = []
  · simp [entryAt?, root]
  · by_cases same : other = place
    · subst same
      simp only [entryAt?, erase, root, if_false, and_self, ne_eq, not_false_eq_true,
        if_true] at erased
      have gone := Option.map_eq_none_iff.mp erased
      simp [entryAt?, put, root, List.find?_append, gone]
    · simp only [entryAt?, erase, root, if_false, same, false_and] at erased
      simp [entryAt?, put, root, same, List.find?_append, Ne.symm same, ← erased]

/-- The names of the entries of a directory. -/
def namesAt (place : Place) : List String :=
  files.entries.filterMap fun (other, _) =>
    if other.dropLast = place then other.getLast? else none

/-! ## Paths -/

/-- How many links may be followed on one way. -/
def greatestLinks : Nat := 40

/--
The place that segments lead to from a directory.

There may be nothing at the place, but the way to it leads through directories
only.  A link at the very end is followed if `follow` says so.
-/
def walk (follow : Bool) (links : Nat) (place : Place) (segments : List String) :
    Except Fault Place :=
  match segments with
  | [] => .ok place
  | segment :: rest =>
      if Path.isIdle segment then walk follow links place rest
      else if segment = ".." then walk follow links place.dropLast rest
      else
        let next := place ++ [segment]
        match (files.entryAt? next).map Entry.node with
        | some .directory => walk follow links next rest
        | some (.file _) => if rest.isEmpty then .ok next else .error .notADirectory
        | some (.link target) =>
            if rest.isEmpty && !follow then .ok next
            else
              match links with
              | 0 => .error .tooManyLinks
              | links + 1 =>
                  walk follow links (if target.isAbsolute then [] else place)
                    (target.segments ++ rest)
        | none => if rest.isEmpty then .ok next else .error .notFound
termination_by (links, segments.length)

/-- The place that a path leads to. -/
def locate (follow : Bool) (path : Path) : Except Fault Place :=
  if path = .empty then .error .notFound
  else
    files.walk follow greatestLinks (if path.isAbsolute then [] else files.workingPlace)
      path.segments

/-- The entry that a path leads to, through all links. -/
def find (path : Path) : Except Fault Entry := do
  match files.entryAt? (← files.locate true path) with
  | some entry => .ok entry
  | none => .error .notFound

/-! ## Reading -/

/-- Whether a path leads to something. -/
def isPresent (path : Path) : Bool :=
  (files.find path).isOk

/-- Whether a path leads to a directory. -/
def isDirectory (path : Path) : Bool :=
  match files.find path with
  | .ok ⟨.directory, _⟩ => true
  | _ => false

/-- Whether what a path leads to is marked as read-only. -/
def isReadOnly (path : Path) : Except Fault Bool :=
  (files.find path).map Entry.isReadOnly

/-- The octets of a file. -/
def readContent (path : Path) : Except Fault ByteArray := do
  match (← files.find path).node with
  | .file content => .ok content
  | .directory => .error .isADirectory
  | .link _ => .error .tooManyLinks

/-- The text of a file. -/
def readText (path : Path) : Except Fault String := do
  match String.fromUTF8? (← files.readContent path) with
  | some text => .ok text
  | none => .error .invalidText

/-- The names of the entries of a directory. -/
def names (path : Path) : Except Fault (List String) := do
  let place ← files.locate true path
  match (files.entryAt? place).map Entry.node with
  | some .directory => .ok (files.namesAt place)
  | some _ => .error .notADirectory
  | none => .error .notFound

theorem fromUTF8?_toUTF8 (text : String) : String.fromUTF8? text.toUTF8 = some text := by
  simp only [String.fromUTF8?, String.toUTF8_eq_toByteArray, dif_pos text.isValidUTF8]
  rfl

/-! ## Writing -/

/-- Writes a file; one that is already there keeps its place and its mark. -/
def write (path : Path) (content : ByteArray) : Except Fault FileSystem := do
  let place ← files.locate true path
  match files.entryAt? place with
  | none => .ok (files.put place { node := .file content })
  | some ⟨.file _, isReadOnly⟩ => .ok (files.put place { node := .file content, isReadOnly })
  | some ⟨.directory, _⟩ => .error .isADirectory
  | some ⟨.link _, _⟩ => .error .tooManyLinks

/--
Puts a new file where a path leads to, in one step.

The file is completed elsewhere in the directory and takes the place of what is
there, so that a link is replaced and its target stays.
-/
def replace (path : Path) (content : ByteArray) : Except Fault FileSystem := do
  let some name := path.name? | .error .isADirectory
  let directory ← files.locate true path.directory
  let place := directory ++ [name]
  match (files.entryAt? directory).map Entry.node, files.entryAt? place with
  | some .directory, some ⟨.directory, _⟩ => .error .isADirectory
  | some .directory, some ⟨.file _, isReadOnly⟩ =>
      .ok (files.put place { node := .file content, isReadOnly })
  | some .directory, _ => .ok (files.put place { node := .file content })
  | some _, _ => .error .notADirectory
  | none, _ => .error .notFound

/-- Takes away a file or a link. -/
def remove (path : Path) : Except Fault FileSystem := do
  let place ← files.locate false path
  match (files.entryAt? place).map Entry.node with
  | some .directory => .error .isADirectory
  | some _ => .ok (files.erase place)
  | none => .error .notFound

/-- Makes a directory in one that is already there. -/
def makeDirectory (path : Path) : Except Fault FileSystem := do
  let place ← files.locate false path
  match files.entryAt? place with
  | some _ => .error .alreadyExists
  | none => .ok (files.put place { node := .directory })

/-- Makes a directory unless it is already there. -/
def ensureDirectory (path : Path) : Except Fault Unit × FileSystem :=
  match files.makeDirectory path with
  | .ok files => (.ok (), files)
  | .error fault => (if files.isDirectory path then .ok () else .error fault, files)

/-- Makes a directory and those above it, as far as they are missing. -/
def makeDirectories (path : Path) : Except Fault Unit × FileSystem :=
  if path = .empty then (.ok (), files)
  else if files.makeDirectory path matches .error .notFound then
    match _up : path.parent? with
    | none => (.error .notFound, files)
    | some parent =>
        match makeDirectories parent with
        | (.ok (), files) => files.ensureDirectory path
        | (.error fault, files) => (.error fault, files)
  else files.ensureDirectory path
termination_by path.depth
decreasing_by exact Path.depth_parent_lt _up

end FileSystem

end KeyLayers
