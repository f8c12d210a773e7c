import KeyLayers.Proofs.Layer.Place
import KeyLayers.Proofs.Outcome
import Mathlib.Logic.Relation

/-!
# Which tree a specification expands to

`Expands` says by rules what the expansion of a node is, without the order in
which the program looks at keys, references and leaves, and without its errors.
An expansion that succeeds obeys the rules (`expansion_of_expand`).

`Visit.Enters` follows the entries of one layer into another, through inline
layers and through references.  Every layer of an expanded tree is the expansion
of a mapping that is visited in this way from the root (`visited_of_layerAt?`).
-/

namespace KeyLayers

/-- What is wrong with a leaf; a layer and a reference are no leaves. -/
def LayerNode.check : LayerNode → Except Defect Unit
  | .action effect => effect.check
  | .raw binding => binding.check
  | .layer _ | .reference _ => .ok ()

theorem LayerSpec.checkLeaf_eq (path : LeaderPath) (spelling : String) (node : LayerNode) :
    checkLeaf path spelling node = node.check.mapError (.invalidBinding spelling path) := by
  cases node <;> rfl

/-! ## The rules -/

/--
The expansion of a node, given the definitions that are being expanded.  A layer
has at least one entry, resolves every key to one that no other entry has, and
has sound leaves only.  A reference expands to the body of its definition.
-/
inductive Expands (definitions : Members LayerMapping) :
    List String → LayerNode → Tree → Prop where
  | action {expanding : List String} (action : Action) :
      Expands definitions expanding (.action action)
        (.leaf ⟨some action.describe, action.encode⟩)
  | raw {expanding : List String} (binding : RawBinding) :
      Expands definitions expanding (.raw binding)
        (.leaf ⟨binding.description, binding.events⟩)
  | layer {expanding : List String} {entries : LayerMapping} {trees : TreeEntries}
      (nonempty : entries ≠ [])
      (resolved : entries.map (fun entry => Key.parse entry.1) =
        trees.map fun entry => .ok entry.1)
      (unique : trees.Unambiguous)
      (checked : ∀ entry ∈ entries, entry.2.check = .ok ())
      (inner : ∀ pair ∈ entries.zip trees,
        Expands definitions expanding pair.1.2 pair.2.2) :
      Expands definitions expanding (.layer entries) (.layer trees)
  | reference {expanding : List String} {name : String} {body : LayerMapping} {tree : Tree}
      (found : definitions.get? name = some body)
      (fresh : name ∉ expanding)
      (inside : Expands definitions (expanding ++ [name]) (.layer body) tree) :
      Expands definitions expanding (.reference name) tree

/-- The expansion of the entries of a layer, or of those of the root. -/
structure Expansion (definitions : Members LayerMapping) (expanding : List String)
    (entries : LayerMapping) (trees : TreeEntries) : Prop where
  resolved : entries.map (fun entry => Key.parse entry.1) =
    trees.map fun entry => .ok entry.1
  unique : trees.Unambiguous
  checked : ∀ entry ∈ entries, entry.2.check = .ok ()
  inner : ∀ pair ∈ entries.zip trees, Expands definitions expanding pair.1.2 pair.2.2

theorem getElem_mem_zip {α β : Type} {left : List α} {right : List β} {index : Nat}
    (inLeft : index < left.length) (inRight : index < right.length) :
    (left[index], right[index]) ∈ left.zip right := by
  have bound : index < (left.zip right).length := by
    rw [List.length_zip]
    exact Nat.lt_min.2 ⟨inLeft, inRight⟩
  exact List.mem_iff_getElem.2 ⟨index, bound, List.getElem_zip⟩

theorem expands_layer_iff {definitions : Members LayerMapping} {expanding : List String}
    {entries : LayerMapping} {tree : Tree} :
    Expands definitions expanding (.layer entries) tree ↔
      ∃ trees, tree = .layer trees ∧ entries ≠ [] ∧
        Expansion definitions expanding entries trees := by
  constructor
  · intro expands
    cases expands with
    | layer nonempty resolved unique checked inner =>
        exact ⟨_, rfl, nonempty, resolved, unique, checked, inner⟩
  · rintro ⟨trees, rfl, nonempty, expansion⟩
    exact .layer nonempty expansion.resolved expansion.unique expansion.checked
      expansion.inner

namespace Expansion

variable {definitions : Members LayerMapping} {expanding : List String}
  {entries : LayerMapping} {trees : TreeEntries}

theorem length_eq (expansion : Expansion definitions expanding entries trees) :
    entries.length = trees.length := by
  simpa using congrArg List.length expansion.resolved

theorem parse_getElem (expansion : Expansion definitions expanding entries trees)
    {index : Nat} (left : index < entries.length) (right : index < trees.length) :
    Key.parse entries[index].1 = .ok trees[index].1 := by
  have agree := congrArg (·[index]?) expansion.resolved
  simpa [left, right] using agree

theorem expands_getElem (expansion : Expansion definitions expanding entries trees)
    {index : Nat} (left : index < entries.length) (right : index < trees.length) :
    Expands definitions expanding entries[index].2 trees[index].2 :=
  expansion.inner _ (getElem_mem_zip left right)

/-- Every entry of a mapping has its place in the expansion. -/
theorem exists_of_mem (expansion : Expansion definitions expanding entries trees)
    {spelling : String} {node : LayerNode} (member : (spelling, node) ∈ entries) :
    ∃ key tree, (key, tree) ∈ trees ∧ Key.parse spelling = .ok key ∧
      Expands definitions expanding node tree := by
  rcases List.mem_iff_getElem.1 member with ⟨index, bound, here⟩
  have other : index < trees.length := expansion.length_eq ▸ bound
  refine ⟨trees[index].1, trees[index].2, List.getElem_mem other, ?_, ?_⟩
  · simpa [here] using expansion.parse_getElem bound other
  · simpa [here] using expansion.expands_getElem bound other

/-- Every entry of the expansion comes from one of the mapping. -/
theorem exists_of_mem_trees (expansion : Expansion definitions expanding entries trees)
    {key : Key} {tree : Tree} (member : (key, tree) ∈ trees) :
    ∃ spelling node, (spelling, node) ∈ entries ∧ Key.parse spelling = .ok key ∧
      Expands definitions expanding node tree := by
  rcases List.mem_iff_getElem.1 member with ⟨index, bound, here⟩
  have other : index < entries.length := expansion.length_eq ▸ bound
  refine ⟨entries[index].1, entries[index].2, List.getElem_mem other, ?_, ?_⟩
  · simpa [here] using expansion.parse_getElem other bound
  · simpa [here] using expansion.expands_getElem other bound

end Expansion

/-! ## Success -/

theorem Claims.add_eq_ok_iff {claims added : Claims} {key : Key} {spelling : String} :
    claims.add key spelling = .ok added ↔
      claims.lookup key = none ∧ claims ++ [(key, spelling)] = added := by
  unfold Claims.add
  split
  · next taken => simp [taken]
  · next free => simp [free]

theorem Claims.add_eq_error_iff {claims : Claims} {key : Key} {spelling first : String} :
    claims.add key spelling = .error first ↔ claims.lookup key = some first := by
  unfold Claims.add
  split
  · next taken => simp [taken]
  · next free => simp [free]

namespace LayerSpec

variable {definitions : Members LayerMapping}

/-- Resolving succeeds with one key for each spelling, none of them claimed twice. -/
theorem keys_of_resolveKeys {path : LeaderPath} {claims : Claims}
    {entries : LayerMapping} {keys : List Key}
    (resolved : resolveKeys definitions path claims entries = .ok keys) :
    entries.map (fun entry => Key.parse entry.1) = keys.map .ok ∧
      keys.Nodup ∧ ∀ key ∈ keys, claims.lookup key = none := by
  induction entries generalizing claims keys with
  | nil =>
      obtain rfl : [] = keys := by simpa [resolveKeys] using resolved
      simp
  | cons entry rest ih =>
      rcases entry with ⟨spelling, node⟩
      simp only [resolveKeys, bind_eq_ok_iff, mapError_eq_ok_iff, pure_eq_ok_iff,
        Claims.add_eq_ok_iff] at resolved
      rcases resolved with ⟨key, parsed, -, ⟨free, rfl⟩, -, -, more, others, rfl⟩
      rcases ih others with ⟨same, distinct, unclaimed⟩
      have apart : ∀ other ∈ more, other ≠ key ∧ claims.lookup other = none := by
        intro other member
        have absent := unclaimed other member
        simp only [List.lookup_append, Option.or_eq_none_iff] at absent
        refine ⟨?_, absent.1⟩
        rintro rfl
        simp at absent
      refine ⟨by simp [parsed, same], ?_, ?_⟩
      · exact List.nodup_cons.2 ⟨fun again => (apart key again).1 rfl, distinct⟩
      · intro other member
        rcases List.mem_cons.1 member with rfl | later
        · exact free
        · exact (apart other later).2

theorem checks_of_checkLeaves {path : LeaderPath} {entries : LayerMapping}
    (checked : checkLeaves path entries = .ok ()) :
    ∀ entry ∈ entries, entry.2.check = .ok () := by
  induction entries with
  | nil => simp
  | cons entry rest ih =>
      rcases entry with ⟨spelling, node⟩
      simp only [checkLeaves, checkLeaf_eq, bind_eq_ok_iff, mapError_eq_ok_iff] at checked
      rcases checked with ⟨⟨⟩, first, others⟩
      intro other member
      rcases List.mem_cons.1 member with rfl | later
      · exact first
      · exact ih others other later

/-- Entries whose trees are known one by one make an expansion. -/
theorem expansion_of_keys {expanding : List String} {path : LeaderPath}
    {entries : LayerMapping} {keys : List Key} {trees : TreeEntries}
    (resolved : resolveKeys definitions path [] entries = .ok keys)
    (same : trees.map Prod.fst = keys)
    (checked : ∀ entry ∈ entries, entry.2.check = .ok ())
    (inner : ∀ pair ∈ entries.zip trees,
      Expands definitions expanding pair.1.2 pair.2.2) :
    Expansion definitions expanding entries trees := by
  rcases keys_of_resolveKeys resolved with ⟨spellings, distinct, -⟩
  refine ⟨?_, ?_, checked, inner⟩
  · rw [spellings, ← same, List.map_map]
    rfl
  · rw [TreeEntries.Unambiguous, same]
    exact distinct

theorem expandNode_layer (definitions : Members LayerMapping)
    (expanding : List String) (path : LeaderPath) (entries : LayerMapping) :
    expandNode definitions expanding path (.layer entries) =
      (expandLayer definitions expanding path entries).map .layer := by
  rw [expandNode]

theorem expandNode_action (definitions : Members LayerMapping)
    (expanding : List String) (path : LeaderPath) (action : Action) :
    expandNode definitions expanding path (.action action) =
      .ok (.leaf ⟨some action.describe, action.encode⟩) := by
  rw [expandNode]

/-- A reference stands for the body of its definition, unless that is being expanded. -/
theorem expandNode_reference (definitions : Members LayerMapping) (expanding : List String)
    (path : LeaderPath) (name : String) :
    expandNode definitions expanding path (.reference name) =
      if name ∈ expanding then
        .error (.cyclicReference (expanding.dropWhile (· != name) ++ [name]))
      else
        match definitions.get? name with
        | none => .error (.unknownReference name path)
        | some body =>
            (expandLayer definitions (expanding ++ [name]) path body).map .layer := by
  rw [expandNode]
  split
  · rfl
  · split
    · next missing => simp only [missing]
    · next body found => simp only [found]

/-- What a successful expansion of a node, a layer or some entries has done. -/
theorem expands_of_expandNode (definitions : Members LayerMapping) :
    (∀ expanding path node tree,
      expandNode definitions expanding path node = .ok tree →
        Expands definitions expanding node tree) ∧
    (∀ expanding path entries trees,
      expandLayer definitions expanding path entries = .ok trees →
        Expands definitions expanding (.layer entries) (.layer trees)) ∧
    (∀ expanding path keys entries trees,
      expandEntries definitions expanding path keys entries = .ok trees →
        keys.length = entries.length →
          trees.map Prod.fst = keys ∧
            ∀ pair ∈ entries.zip trees,
              Expands definitions expanding pair.1.2 pair.2.2) := by
  refine expandNode.mutual_induct definitions
    (fun expanding path node => ∀ tree, _) (fun expanding path entries => ∀ trees, _)
    (fun expanding path keys entries => ∀ trees, _)
    ?action ?raw ?layer ?cycle ?unknown ?body ?empty ?badKeys ?badEntry ?badLeaf ?sound
    ?badFirst ?badRest ?both ?done
  case action =>
    intro expanding path action tree done
    simp only [expandNode, Except.ok.injEq] at done
    exact done ▸ .action action
  case raw =>
    intro expanding path binding tree done
    simp only [expandNode, Except.ok.injEq] at done
    exact done ▸ .raw binding
  case layer =>
    intro expanding path entries ih tree done
    simp only [expandNode, map_eq_ok_iff] at done
    rcases done with ⟨trees, done, rfl⟩
    exact ih trees done
  case cycle =>
    intro expanding path name again tree done
    rw [expandNode_reference, if_pos again] at done
    cases done
  case unknown =>
    intro expanding path name fresh missing tree done
    simp only [expandNode_reference, if_neg fresh, missing] at done
    cases done
  case body =>
    intro expanding path name fresh body found fewer ih tree done
    simp only [expandNode_reference, if_neg fresh, found, map_eq_ok_iff] at done
    rcases done with ⟨trees, done, rfl⟩
    exact .reference found fresh (ih trees done)
  case empty =>
    intro expanding path entries none trees done
    simp [expandLayer, none] at done
  case badKeys =>
    intro expanding path entries some error resolved trees done
    simp [expandLayer, some, resolved] at done
  case badEntry =>
    intro expanding path entries some keys resolved error failed ih trees done
    simp [expandLayer, some, resolved, failed] at done
  case badLeaf =>
    intro expanding path entries some keys resolved trees expanded error failed ih other
      done
    simp [expandLayer, some, resolved, expanded, failed] at done
  case sound =>
    intro expanding path entries some keys resolved trees expanded checked ih other done
    obtain rfl : trees = other := by
      simpa [expandLayer, some, resolved, expanded, checked] using done
    have lengths : keys.length = entries.length := by
      simpa using (congrArg List.length (keys_of_resolveKeys resolved).1).symm
    rcases ih trees expanded lengths with ⟨same, inner⟩
    apply expands_layer_iff.2
    exact ⟨trees, rfl, by simpa using some,
      expansion_of_keys resolved same (checks_of_checkLeaves checked) inner⟩
  case badFirst =>
    intro expanding path key keys spelling node rest error failed ih trees done
    simp [expandEntries, failed] at done
  case badRest =>
    intro expanding path key keys spelling node rest tree first error failed ih restIh
      trees done
    simp [expandEntries, first, failed] at done
  case both =>
    intro expanding path key keys spelling node rest tree first trees others ih restIh
      all done lengths
    obtain rfl : (key, tree) :: trees = all := by
      simpa [expandEntries, first, others] using done
    rcases restIh trees others (by simpa using lengths) with ⟨same, inner⟩
    refine ⟨by simp [same], ?_⟩
    intro pair member
    rw [List.zip_cons_cons, List.mem_cons] at member
    rcases member with rfl | later
    · exact ih tree first
    · exact inner pair later
  case done =>
    intro expanding path keys entries ended trees done lengths
    cases keys with
    | nil =>
        obtain rfl : [] = entries := (List.length_eq_zero_iff.1 lengths.symm).symm
        obtain rfl : [] = trees := by simpa [expandEntries] using done
        simp
    | cons key keys =>
        cases entries with
        | nil => simp at lengths
        | cons entry rest => exact (ended key keys entry.1 entry.2 rest rfl rfl).elim

theorem expands_of_expandRoot {keys : List Key} {entries : LayerMapping}
    {trees : TreeEntries} (expanded : expandRoot definitions keys entries = .ok trees)
    (lengths : keys.length = entries.length) :
    trees.map Prod.fst = keys ∧
      (∀ entry ∈ entries, entry.2.check = .ok ()) ∧
      ∀ pair ∈ entries.zip trees, Expands definitions [] pair.1.2 pair.2.2 := by
  induction entries generalizing keys trees with
  | nil =>
      obtain rfl : keys = [] := List.length_eq_zero_iff.1 lengths
      obtain rfl : [] = trees := by simpa [expandRoot] using expanded
      simp
  | cons entry rest ih =>
      rcases entry with ⟨spelling, node⟩
      cases keys with
      | nil => simp at lengths
      | cons key keys =>
          simp only [expandRoot, checkLeaf_eq, bind_eq_ok_iff, mapError_eq_ok_iff,
            pure_eq_ok_iff] at expanded
          rcases expanded with ⟨⟨⟩, checked, tree, first, more, others, rfl⟩
          rcases ih others (by simpa using lengths) with ⟨same, sound, inner⟩
          refine ⟨by simp [same], ?_, ?_⟩
          · intro other member
            rcases List.mem_cons.1 member with rfl | later
            · exact checked
            · exact sound other later
          · intro pair member
            rw [List.zip_cons_cons, List.mem_cons] at member
            rcases member with rfl | later
            · exact (expands_of_expandNode definitions).1 _ _ _ _ first
            · exact inner pair later

/-- The tree of a specification is the expansion of its root. -/
theorem expansion_of_expand {spec : LayerSpec} {tree : TreeEntries}
    (expanded : spec.expand = .ok tree) :
    Expansion spec.definitions [] spec.root tree := by
  simp only [expand, bind_eq_ok_iff] at expanded
  rcases expanded with ⟨keys, resolved, expanded⟩
  have lengths : keys.length = spec.root.length := by
    simpa using (congrArg List.length (keys_of_resolveKeys resolved).1).symm
  rcases expands_of_expandRoot expanded lengths with ⟨same, checked, inner⟩
  exact expansion_of_keys resolved same checked inner

/-- A specification that compiles has been expanded under sound options. -/
theorem compile_eq_ok_iff {spec : LayerSpec} {options : CompileOptions}
    {compilation : Compilation} :
    spec.compile options = .ok compilation ↔
      options.check = .ok () ∧
        ∃ tree, spec.expand = .ok tree ∧ options.compileTree tree = compilation := by
  simp only [compile, bind_eq_ok_iff, pure_eq_ok_iff]
  constructor
  · rintro ⟨⟨⟩, checked, expanded⟩
    exact ⟨checked, expanded⟩
  · rintro ⟨checked, expanded⟩
    exact ⟨(), checked, expanded⟩

theorem compilation_eq {spec : LayerSpec} {options : CompileOptions}
    {compilation : Compilation} {tree : TreeEntries}
    (compiled : spec.compile options = .ok compilation)
    (expanded : spec.expand = .ok tree) : compilation = options.compileTree tree := by
  rcases compile_eq_ok_iff.1 compiled with ⟨-, other, again, rfl⟩
  rw [Except.ok.inj (expanded.symm.trans again)]

end LayerSpec

/-! ## Visits -/

/-- A mapping met while the references of a specification are followed. -/
structure Visit where
  /-- The definitions on the way to the mapping, outermost first. -/
  expanding : List String
  path : LeaderPath
  entries : LayerMapping

/-- One step from a mapping into a layer that one of its keys leads to. -/
inductive Visit.Enters (definitions : Members LayerMapping) : Visit → Visit → Prop where
  | layer {visit : Visit} {spelling : String} {key : Key} {inner : LayerMapping}
      (member : (spelling, .layer inner) ∈ visit.entries)
      (parsed : Key.parse spelling = .ok key) :
      Enters definitions visit ⟨visit.expanding, visit.path.child key, inner⟩
  | reference {visit : Visit} {spelling name : String} {key : Key} {body : LayerMapping}
      (member : (spelling, .reference name) ∈ visit.entries)
      (parsed : Key.parse spelling = .ok key)
      (found : definitions.get? name = some body) :
      Enters definitions visit ⟨visit.expanding ++ [name], visit.path.child key, body⟩

/-- Any number of steps from one mapping into another. -/
abbrev Visit.Reaches (definitions : Members LayerMapping) : Visit → Visit → Prop :=
  Relation.ReflTransGen (Visit.Enters definitions)

namespace LayerSpec

/-- The root of a specification, where every visit begins. -/
def start (spec : LayerSpec) : Visit :=
  ⟨[], .root, spec.root⟩

/-- The mappings of the tree that following all references gives. -/
def Visits (spec : LayerSpec) (visit : Visit) : Prop :=
  Visit.Reaches spec.definitions spec.start visit

end LayerSpec

/-- A layer inside an expansion is entered from the mapping that was expanded. -/
theorem Expansion.enters {definitions : Members LayerMapping} {visit : Visit}
    {trees inner : TreeEntries} {key : Key}
    (expansion : Expansion definitions visit.expanding visit.entries trees)
    (found : trees.lookup key = some (.layer inner)) :
    ∃ next, visit.Enters definitions next ∧ next.path = visit.path.child key ∧
      Expansion definitions next.expanding next.entries inner := by
  rcases expansion.exists_of_mem_trees (mem_of_lookup found) with
    ⟨spelling, node, member, parsed, expands⟩
  cases expands with
  | layer nonempty resolved unique checked below =>
      exact ⟨_, .layer member parsed, rfl, resolved, unique, checked, below⟩
  | reference found fresh inside =>
      rcases expands_layer_iff.1 inside with ⟨trees, same, nonempty, body⟩
      cases same
      exact ⟨_, .reference member parsed found, rfl, body⟩

/-- Every layer of an expansion is that of a mapping reached from the start. -/
theorem Expansion.reaches {definitions : Members LayerMapping} {visit : Visit}
    {trees inner : TreeEntries} {keys : List Key}
    (expansion : Expansion definitions visit.expanding visit.entries trees)
    (found : trees.layerAt? keys = some inner) :
    ∃ last, visit.Reaches definitions last ∧ last.path.keys = visit.path.keys ++ keys ∧
      Expansion definitions last.expanding last.entries inner := by
  induction keys generalizing visit trees with
  | nil =>
      obtain rfl : trees = inner := by simpa using found
      exact ⟨visit, .refl, by simp, expansion⟩
  | cons key rest ih =>
      rcases TreeEntries.layerAt?_cons_iff.1 found with ⟨deeper, hit, found⟩
      rcases expansion.enters hit with ⟨next, step, path, below⟩
      rcases ih below found with ⟨last, steps, keys, atLast⟩
      exact ⟨last, .head step steps, by simp [keys, path], atLast⟩

namespace LayerSpec

/-- Every layer of the tree is the expansion of a mapping visited on its path. -/
theorem visited_of_layerAt? {spec : LayerSpec} {tree entries : TreeEntries}
    (path : LeaderPath) (expanded : spec.expand = .ok tree)
    (found : tree.layerAt? path.keys = some entries) :
    ∃ visit, spec.Visits visit ∧ visit.path = path ∧
      Expansion spec.definitions visit.expanding visit.entries entries := by
  have whole : Expansion spec.definitions spec.start.expanding spec.start.entries tree :=
    expansion_of_expand expanded
  rcases whole.reaches found with ⟨visit, steps, keys, expansion⟩
  exact ⟨visit, steps, LeaderPath.ext (by simpa [start] using keys), expansion⟩

/-- In no layer of the tree a key is bound twice. -/
theorem distinct_of_expand {spec : LayerSpec} {tree : TreeEntries}
    (expanded : spec.expand = .ok tree) : tree.Distinct := by
  intro keys entries found
  rcases visited_of_layerAt? ⟨keys⟩ expanded found with
    ⟨visit, -, -, expansion⟩
  exact expansion.unique

end LayerSpec

/-! ## A specification with two layers in the root, one with a layer inside -/

namespace Sample

def outer : Key := ⟨"a", by decide⟩

def inner : Key := ⟨"b", by decide⟩

def side : Key := ⟨"s", by decide⟩

def lock : Key := ⟨"l", by decide⟩

def note : Key := ⟨"n", by decide⟩

def launch : Action := .launchApp "Notes"

def spec : LayerSpec where
  root :=
    [("a", .layer [("b", .layer [("n", .action launch)]), ("l", .action launch)]),
      ("s", .layer [("n", .action launch)])]

def leaf : Leaf := ⟨some launch.describe, launch.encode⟩

def innerTree : TreeEntries := [(note, .leaf leaf)]

def outerTree : TreeEntries := [(inner, .layer innerTree), (lock, .leaf leaf)]

def tree : TreeEntries := [(outer, .layer outerTree), (side, .layer innerTree)]

theorem parse_outer : Key.parse "a" = .ok outer := by decide +kernel

theorem parse_inner : Key.parse "b" = .ok inner := by decide +kernel

theorem parse_side : Key.parse "s" = .ok side := by decide +kernel

theorem parse_lock : Key.parse "l" = .ok lock := by decide +kernel

theorem parse_note : Key.parse "n" = .ok note := by decide +kernel

theorem check_launch : launch.check = .ok () := by decide +kernel

theorem expand_spec : spec.expand = .ok tree := by
  have inOuter : (lock == inner) = false := by decide
  have inRoot : (side == outer) = false := by decide
  simp [LayerSpec.expand, spec, tree, outerTree, innerTree, leaf, LayerSpec.resolveKeys,
    LayerSpec.expandRoot, LayerSpec.expandNode, LayerSpec.expandLayer,
    LayerSpec.expandEntries, LayerSpec.checkLeaf_eq, LayerSpec.checkLeaves,
    LayerNode.check, LayerSpec.checkReference, Claims.add, List.lookup_nil,
    List.lookup_cons, parse_outer, parse_inner, parse_side, parse_lock, parse_note,
    check_launch, inOuter, inRoot, bind, Except.bind, Except.mapError, Except.map, pure,
    Except.pure]

/-- A layer in the root with a single action. -/
theorem expand_single {spelling : String} {key : Key} (parsed : Key.parse spelling = .ok key) :
    LayerSpec.expand { root := [("a", .layer [(spelling, .action launch)])] } =
      .ok [(outer, .layer [(key, .leaf leaf)])] := by
  simp [LayerSpec.expand, leaf, LayerSpec.resolveKeys, LayerSpec.expandRoot,
    LayerSpec.expandNode, LayerSpec.expandLayer, LayerSpec.expandEntries,
    LayerSpec.checkLeaf_eq, LayerSpec.checkLeaves, LayerNode.check,
    LayerSpec.checkReference, Claims.add, List.lookup_nil, parse_outer, parsed,
    check_launch, bind, Except.bind, Except.mapError, Except.map, pure, Except.pure]

theorem compile_spec : spec.compile {} = .ok (CompileOptions.compileTree {} tree) :=
  LayerSpec.compile_eq_ok_iff.2 ⟨by decide +kernel, tree, expand_spec, rfl⟩

theorem keys_of_innerTree {keys : List Key} {entries : TreeEntries}
    (found : innerTree.layerAt? keys = some entries) : keys = [] ∧ entries = innerTree := by
  rcases keys with _ | ⟨key, keys⟩
  · exact ⟨rfl, (Option.some.inj found).symm⟩
  · rcases TreeEntries.layerAt?_cons_iff.1 found with ⟨below, hit, -⟩
    have member := mem_of_lookup hit
    simp [innerTree] at member

theorem layers_of_layerAt? {keys : List Key} {entries : TreeEntries}
    (found : tree.layerAt? keys = some entries) :
    (keys = [] ∧ entries = tree) ∨ (keys = [outer] ∧ entries = outerTree) ∨
      (keys = [side] ∧ entries = innerTree) ∨
        (keys = [outer, inner] ∧ entries = innerTree) := by
  rcases keys with _ | ⟨first, keys⟩
  · exact Or.inl ⟨rfl, (Option.some.inj found).symm⟩
  · rcases TreeEntries.layerAt?_cons_iff.1 found with ⟨below, hit, found⟩
    have member := mem_of_lookup hit
    simp only [tree, List.mem_cons, Prod.mk.injEq, Tree.layer.injEq, List.not_mem_nil,
      or_false] at member
    rcases member with ⟨rfl, rfl⟩ | ⟨rfl, rfl⟩
    · rcases keys with _ | ⟨second, keys⟩
      · exact Or.inr (Or.inl ⟨rfl, (Option.some.inj found).symm⟩)
      · rcases TreeEntries.layerAt?_cons_iff.1 found with ⟨below, hit, found⟩
        have member := mem_of_lookup hit
        simp only [outerTree, List.mem_cons, Prod.mk.injEq, Tree.layer.injEq, reduceCtorEq,
          and_false, List.not_mem_nil, or_false] at member
        rcases member with ⟨rfl, rfl⟩
        rcases keys_of_innerTree found with ⟨rfl, rfl⟩
        exact Or.inr (Or.inr (Or.inr ⟨rfl, rfl⟩))
    · rcases keys_of_innerTree found with ⟨rfl, rfl⟩
      exact Or.inr (Or.inr (Or.inl ⟨rfl, rfl⟩))

end Sample

end KeyLayers
