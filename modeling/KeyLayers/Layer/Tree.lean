import KeyLayers.Layer.Allocator

/-!
# The expanded layer tree

Expanding a specification resolves every key, follows every reference and
checks every leaf.  What is left is a tree of keys: a layer holds entries in the
author's order, and a leaf holds the events it sends.

References may form any graph.  A definition that is being expanded already is
an error, so the recursion ends: with each reference followed, fewer definitions
remain that may still be entered.
-/

namespace KeyLayers

/-- What a leaf does, with its description. -/
structure Leaf where
  description : Option String
  events : List Event
deriving DecidableEq

/-- The content of an entry after expansion. -/
inductive Tree where
  | leaf (leaf : Leaf)
  | layer (entries : List (Key × Tree))

/-- The entries of an expanded layer. -/
abbrev TreeEntries := List (Key × Tree)

/-- Whether a tree is a layer. -/
def Tree.isLayer : Tree → Bool
  | .leaf _ => false
  | .layer _ => true

/-- The keys among some entries that lead to a layer. -/
def TreeEntries.layerKeys (entries : TreeEntries) : List Key :=
  (entries.filter (·.2.isLayer)).map Prod.fst

namespace LayerSpec

/-! ## One layer -/

/-- Checks that a reference names a definition. -/
def checkReference (definitions : Members LayerMapping) (path : LeaderPath) :
    LayerNode → Except CompileError Unit
  | .reference name =>
      if (definitions.get? name).isSome then .ok () else .error (.unknownReference name path)
  | _ => .ok ()

/-- The keys of a mapping, each one claimed and its reference looked up. -/
def resolveKeys (definitions : Members LayerMapping) (path : LeaderPath) (claims : Claims) :
    LayerMapping → Except CompileError (List Key)
  | [] => .ok []
  | (spelling, node) :: rest => do
      let key ← (Key.parse spelling).mapError fun error => .unknownKey error.name path
      let claims ← (claims.add key spelling).mapError fun first =>
        .duplicateKey spelling first path
      checkReference definitions (path.child key) node
      return key :: (← resolveKeys definitions path claims rest)

/-- Checks a leaf; other nodes are checked where they are expanded. -/
def checkLeaf (path : LeaderPath) (spelling : String) (node : LayerNode) :
    Except CompileError Unit :=
  let checked : Except Defect Unit :=
    match node with
    | .action action => action.check
    | .raw binding => binding.check
    | .layer _ | .reference _ => .ok ()
  checked.mapError (.invalidBinding spelling path)

/-- Checks the leaves of a mapping in order. -/
def checkLeaves (path : LeaderPath) : LayerMapping → Except CompileError Unit
  | [] => .ok ()
  | (spelling, node) :: rest => do
      checkLeaf path spelling node
      checkLeaves path rest

/-! ## All layers -/

/-- How many definitions may still be entered. -/
def remaining (definitions : Members LayerMapping) (expanding : List String) : Nat :=
  (definitions.names.filter (!expanding.contains ·)).length

theorem mem_names_of_get? {definitions : Members LayerMapping} {name : String}
    {body : LayerMapping} (found : definitions.get? name = some body) :
    name ∈ definitions.names := by
  simp only [Members.get?, Option.map_eq_some_iff] at found
  obtain ⟨entry, hit, -⟩ := found
  have same : entry.1 = name := by simpa using List.find?_some hit
  exact List.mem_map.2 ⟨entry, List.mem_of_find?_eq_some hit, same⟩

/-- Entering a definition leaves fewer to enter. -/
theorem remaining_lt {definitions : Members LayerMapping} {expanding : List String}
    {name : String} (known : name ∈ definitions.names) (fresh : name ∉ expanding) :
    remaining definitions (expanding ++ [name]) < remaining definitions expanding := by
  unfold remaining
  have split : definitions.names.filter (!(expanding ++ [name]).contains ·) =
      (definitions.names.filter (!expanding.contains ·)).filter (· != name) := by
    rw [List.filter_filter]
    congr 1
    funext other
    by_cases same : other = name <;> simp [same]
  rw [split]
  apply List.length_filter_lt_length_iff_exists.2
  exact ⟨name, by simp [known, fresh], by simp⟩

mutual

/-- Expands the node of an entry, given the definitions that are being expanded. -/
def expandNode (definitions : Members LayerMapping) (expanding : List String)
    (path : LeaderPath) (node : LayerNode) : Except CompileError Tree :=
  match node with
  | .action action => .ok (.leaf ⟨some action.describe, action.encode⟩)
  | .raw binding => .ok (.leaf ⟨binding.description, binding.events⟩)
  | .layer entries =>
      (expandLayer definitions expanding path entries).map .layer
  | .reference name =>
      if known : name ∈ expanding then
        .error (.cyclicReference (expanding.dropWhile (· != name) ++ [name]))
      else
        match found : definitions.get? name with
        | none => .error (.unknownReference name path)
        | some body =>
            have := remaining_lt (mem_names_of_get? found) known
            (expandLayer definitions (expanding ++ [name]) path body).map .layer
termination_by (remaining definitions expanding, sizeOf node, 0)

/-- Expands a layer, which has at least one entry. -/
def expandLayer (definitions : Members LayerMapping) (expanding : List String)
    (path : LeaderPath) (entries : LayerMapping) : Except CompileError TreeEntries :=
  if entries.isEmpty then .error (.emptyLayer path)
  else
    match resolveKeys definitions path [] entries with
    | .error error => .error error
    | .ok keys =>
        match expandEntries definitions expanding path keys entries with
        | .error error => .error error
        | .ok trees =>
            match checkLeaves path entries with
            | .error error => .error error
            | .ok () => .ok trees
termination_by (remaining definitions expanding, sizeOf entries, 1)

/-- Expands the entries of a layer, whose keys have been resolved. -/
def expandEntries (definitions : Members LayerMapping) (expanding : List String)
    (path : LeaderPath) (keys : List Key) (entries : LayerMapping) :
    Except CompileError TreeEntries :=
  match keys, entries with
  | key :: keys, (_, node) :: rest =>
      match expandNode definitions expanding (path.child key) node with
      | .error error => .error error
      | .ok tree =>
          match expandEntries definitions expanding path keys rest with
          | .error error => .error error
          | .ok trees => .ok ((key, tree) :: trees)
  | _, _ => .ok []
termination_by (remaining definitions expanding, sizeOf entries, 0)

end

/-! ## The root -/

/-- Expands the entries of the root in order, each leaf being checked in its place. -/
def expandRoot (definitions : Members LayerMapping) :
    List Key → LayerMapping → Except CompileError TreeEntries
  | key :: keys, (spelling, node) :: rest => do
      checkLeaf .root spelling node
      let tree ← expandNode definitions [] (LeaderPath.root.child key) node
      return (key, tree) :: (← expandRoot definitions keys rest)
  | _, _ => .ok []

/-- The tree of a specification; unlike a layer, the root may be empty. -/
def expand (spec : LayerSpec) : Except CompileError TreeEntries := do
  let keys ← resolveKeys spec.definitions .root [] spec.root
  expandRoot spec.definitions keys spec.root

end LayerSpec

end KeyLayers
