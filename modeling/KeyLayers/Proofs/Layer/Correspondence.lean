import KeyLayers.Proofs.Layer.Address
import KeyLayers.Proofs.Layer.Expansion
import Mathlib.Data.List.Forall2

/-!
# One manipulator for each entry

The manipulators of a compilation correspond one to one to the entries of the
expanded tree, and its blocks to the entries of the root.  What the manipulator
of an entry has to be is said here in terms of what the author wrote: the node of
the entry, the keys that lead to it and the layers beside it, in their order
(`CompileOptions.Renders`).
-/

namespace KeyLayers

/-! ## What the author wrote -/

namespace LayerNode

/-- Whether a node is a layer, written in place or somewhere else. -/
def isLayer : LayerNode → Bool
  | .layer _ | .reference _ => true
  | .action _ | .raw _ => false

/-- The events that a leaf sends: those of its action, or its raw events as they are. -/
def events? : LayerNode → Option (List Event)
  | .action effect => some effect.encode
  | .raw binding => some binding.events
  | .layer _ | .reference _ => none

end LayerNode

/--
Whether an entry comes from a node that is written in the mapping on its path.
The layers beside the entry are those of the mapping, in the author's order.
-/
def LayerSpec.Writes (spec : LayerSpec) (place : TreePlace) (node : LayerNode) : Prop :=
  ∃ visit spelling, spec.Visits visit ∧ visit.path = place.path ∧
    (spelling, node) ∈ visit.entries ∧ Key.parse spelling = .ok place.key ∧
    (visit.entries.filter (·.2.isLayer)).map (fun entry => Key.parse entry.1) =
      place.layers.map .ok

theorem Expands.isLayer_eq {definitions : Members LayerMapping} {expanding : List String}
    {node : LayerNode} {tree : Tree} (expands : Expands definitions expanding node tree) :
    node.isLayer = tree.isLayer := by
  cases expands with
  | action action => rfl
  | raw binding => rfl
  | layer nonempty resolved unique checked inner => rfl
  | reference found fresh inside =>
      rcases expands_layer_iff.1 inside with ⟨trees, rfl, -⟩
      rfl

theorem Expands.events?_eq {definitions : Members LayerMapping} {expanding : List String}
    {node : LayerNode} {leaf : Leaf} (expands : Expands definitions expanding node (.leaf leaf)) :
    node.events? = some leaf.events := by
  cases expands with
  | action action => rfl
  | raw binding => rfl
  | reference found fresh inside =>
      rcases expands_layer_iff.1 inside with ⟨trees, impossible, -⟩
      cases impossible

/-- The layers of an expansion are those of the mapping, in the author's order. -/
theorem layerKeys_of_pairs {definitions : Members LayerMapping} {expanding : List String}
    {entries : LayerMapping} {trees : TreeEntries}
    (resolved : entries.map (fun entry => Key.parse entry.1) =
      trees.map fun entry => .ok entry.1)
    (inner : ∀ pair ∈ entries.zip trees,
      Expands definitions expanding pair.1.2 pair.2.2) :
    (entries.filter (·.2.isLayer)).map (fun entry => Key.parse entry.1) =
      trees.layerKeys.map .ok := by
  induction entries generalizing trees with
  | nil =>
      obtain rfl : [] = trees := by simpa using resolved
      rfl
  | cons entry rest ih =>
      cases trees with
      | nil => simp at resolved
      | cons tree trees =>
          simp only [List.map_cons, List.cons.injEq] at resolved
          rw [List.zip_cons_cons, List.forall_mem_cons] at inner
          have tail := ih resolved.2 inner.2
          rw [TreeEntries.layerKeys, List.filter_cons, List.filter_cons, inner.1.isLayer_eq]
          split
          · rw [List.map_cons, List.map_cons, List.map_cons, resolved.1, tail]
            rfl
          · exact tail

/-- Every entry of the tree comes from what the author wrote on its path. -/
theorem LayerSpec.exists_writes {spec : LayerSpec} {tree : TreeEntries} {place : TreePlace}
    (expanded : spec.expand = .ok tree) (has : tree.Has place) :
    ∃ node definitions expanding, spec.Writes place node ∧
      Expands definitions expanding node place.tree := by
  rcases has with ⟨entries, found, layers, member⟩
  rcases visited_of_layerAt? place.path expanded found with ⟨visit, visited, path, expansion⟩
  rcases expansion.exists_of_mem_trees member with ⟨spelling, node, here, parsed, expands⟩
  have beside := layerKeys_of_pairs expansion.resolved expansion.inner
  rw [← layers] at beside
  exact ⟨node, _, _, ⟨visit, spelling, visited, path, here, parsed, beside⟩, expands⟩

/-! ## What is compiled from it -/

namespace CompileOptions

variable (options : CompileOptions)

/-- The conditions that the layers of all nonempty prefixes of a path are held, in order. -/
def allHeld (path : LeaderPath) : List Condition :=
  path.chain.map fun layer => .variableIf (layer.state options.base).name 1

/-- The conditions that some layers under a path are not held, in order. -/
def noneHeld (path : LeaderPath) (keys : List Key) : List Condition :=
  keys.map fun key => .variableIf ((path.child key).state options.base).name 0

/-- Whether a manipulator enters and leaves a layer beside the given ones. -/
structure Toggles (path : LeaderPath) (layers : List Key) (key : Key)
    (manipulator : Manipulator) : Prop where
  input : manipulator.from_ = .anyModifiers key
  press : manipulator.onPress = [.set ((path.child key).state options.base).name 1]
  release : manipulator.onRelease = [.set ((path.child key).state options.base).name 0]
  alone : manipulator.ifAlone = [.press key]
  conditions : manipulator.conditions =
    (if path = .root then options.rootConditions else options.allHeld path) ++
      options.noneHeld path (layers.filter (· != key)) ++ options.contextConditions

/-- Whether a manipulator sends the events of a leaf beside the given layers. -/
structure Sends (path : LeaderPath) (layers : List Key) (key : Key) (events : List Event)
    (manipulator : Manipulator) : Prop where
  input : manipulator.from_ = .anyModifiers key
  press : manipulator.onPress = events
  release : manipulator.onRelease = []
  alone : manipulator.ifAlone = []
  conditions : manipulator.conditions =
    (if path = .root then options.rootConditions ++ options.noneHeld path layers
      else options.allHeld path) ++ options.contextConditions

/-- Whether a manipulator is what an entry of a specification calls for. -/
inductive Renders (spec : LayerSpec) : TreePlace → Manipulator → Prop where
  | layer {place : TreePlace} {node : LayerNode} {manipulator : Manipulator}
      (isLayer : place.tree.isLayer = true) (writes : spec.Writes place node)
      (nodeIsLayer : node.isLayer = true)
      (toggles : options.Toggles place.path place.layers place.key manipulator) :
      Renders spec place manipulator
  | leaf {place : TreePlace} {node : LayerNode} {events : List Event}
      {manipulator : Manipulator} (isLeaf : place.tree.isLayer = false)
      (writes : spec.Writes place node) (given : node.events? = some events)
      (sends : options.Sends place.path place.layers place.key events manipulator) :
      Renders spec place manipulator

variable {options}

theorem gate_eq (path : LeaderPath) :
    options.gate path =
      if path = .root then options.rootConditions else options.allHeld path := by
  rcases path with ⟨_ | ⟨key, keys⟩⟩
  · rfl
  · rfl

theorem toggles_activation (path : LeaderPath) (layers : List Key) (key : Key) :
    options.Toggles path layers key (options.activation path layers key) where
  input := rfl
  press := rfl
  release := rfl
  alone := rfl
  conditions := by
    rw [activation, activationConditions, gate_eq]
    rfl

theorem sends_dispatch (path : LeaderPath) (layers : List Key) (key : Key) (leaf : Leaf) :
    options.Sends path layers key leaf.events (options.dispatch path layers key leaf) where
  input := rfl
  press := rfl
  release := rfl
  alone := rfl
  conditions := by
    rw [dispatch, leafConditions, gate_eq]
    rcases path with ⟨_ | ⟨first, keys⟩⟩
    · rfl
    · simp [LeaderPath.root]

/-- The manipulator that an entry is compiled to is the one that it calls for. -/
theorem renders_manipulatorOf {spec : LayerSpec} {tree : TreeEntries} {place : TreePlace}
    (expanded : spec.expand = .ok tree) (has : tree.Has place) :
    options.Renders spec place (options.manipulatorOf place) := by
  rcases LayerSpec.exists_writes expanded has with ⟨node, _, _, writes, expands⟩
  rcases place with ⟨path, layers, key, leaf | inner⟩
  · exact .leaf rfl writes expands.events?_eq (sends_dispatch path layers key leaf)
  · exact .layer rfl writes expands.isLayer_eq (toggles_activation path layers key)

/-- Whether a block is that of an entry of the root, with all that is inside the entry. -/
structure RendersBlock (spec : LayerSpec) (options : CompileOptions) (layers : List Key)
    (entry : Key × Tree) (block : LayerBlock) : Prop where
  key : block.key = entry.1
  kind : block.kind = if entry.2.isLayer then .sublayer else .binding
  manipulators : List.Forall₂ (options.Renders spec) (entry.2.places .root layers entry.1)
    block.manipulators

theorem forall₂_renders {spec : LayerSpec} {tree : TreeEntries} {places : List TreePlace}
    (expanded : spec.expand = .ok tree) (within : ∀ place ∈ places, tree.Has place) :
    List.Forall₂ (options.Renders spec) places (places.map options.manipulatorOf) := by
  rw [List.forall₂_map_right_iff, List.forall₂_same]
  exact fun place member => renders_manipulatorOf expanded (within place member)

end CompileOptions

/--
Each entry of the root has a block, in the author's order, and each entry of the
tree one manipulator, in the order in which the places of the tree are listed.
Every manipulator is what the node that the author wrote for the entry calls for.
-/
theorem compilation_renders_entries {spec : LayerSpec} {options : CompileOptions}
    {compilation : Compilation} (compiled : spec.compile options = .ok compilation) :
    ∃ tree, spec.expand = .ok tree ∧
      spec.root.map (fun entry => Key.parse entry.1) =
        compilation.blocks.map (fun block => .ok block.key) ∧
      List.Forall₂ (CompileOptions.RendersBlock spec options tree.layerKeys) tree
        compilation.blocks ∧
      tree.places.Nodup ∧ (∀ place, place ∈ tree.places ↔ tree.Has place) ∧
      List.Forall₂ (options.Renders spec) tree.places
        (compilation.blocks.flatMap LayerBlock.manipulators) := by
  rcases LayerSpec.compile_eq_ok_iff.1 compiled with ⟨-, tree, expanded, rfl⟩
  have distinct := LayerSpec.distinct_of_expand expanded
  have has : ∀ place ∈ tree.places, tree.Has place :=
    fun place => (TreeEntries.mem_places_iff distinct).1
  refine ⟨tree, expanded, ?_, ?_, TreeEntries.nodup_places distinct,
    fun place => TreeEntries.mem_places_iff distinct, ?_⟩
  · rw [(LayerSpec.expansion_of_expand expanded).resolved, CompileOptions.compileTree,
      List.map_map]
    rfl
  · rw [CompileOptions.compileTree, List.forall₂_map_right_iff, List.forall₂_same]
    rintro ⟨key, bound⟩ member
    refine ⟨rfl, rfl, ?_⟩
    show List.Forall₂ _ _ (options.manipulators .root tree.layerKeys key bound)
    rw [CompileOptions.manipulators_eq_map]
    apply CompileOptions.forall₂_renders expanded
    intro place within
    exact has place (List.mem_flatMap.2 ⟨(key, bound), member, within⟩)
  · have manipulators := options.manipulators_compileTree options.label tree
    rw [List.flatMap_map] at manipulators
    show List.Forall₂ _ _ ((options.compileTree tree).blocks.flatMap fun block =>
      (block.rule options.label).manipulators)
    rw [manipulators]
    exact CompileOptions.forall₂_renders expanded has

namespace Sample

/-- Options that gate the root by a leading key and every manipulator by the application. -/
def gated : CompileOptions where
  rootConditions := [.variableIf "hyper" 1]
  contextConditions := [.frontmostUnless ["^com\\.apple\\.Terminal$"]]

theorem compile_gated : spec.compile gated = .ok (gated.compileTree tree) :=
  LayerSpec.compile_eq_ok_iff.2 ⟨by decide +kernel, tree, expand_spec, rfl⟩

/-- The entries of the tree in the order of their manipulators. -/
def gatedPlaces : List TreePlace :=
  [⟨.root, [outer, side], outer, .layer outerTree⟩,
    ⟨⟨[outer]⟩, [inner], inner, .layer innerTree⟩,
    ⟨⟨[outer, inner]⟩, [], note, .leaf leaf⟩,
    ⟨⟨[outer]⟩, [inner], lock, .leaf leaf⟩,
    ⟨.root, [outer, side], side, .layer innerTree⟩,
    ⟨⟨[side]⟩, [], note, .leaf leaf⟩]

theorem gated_renders_places :
    spec.compile gated = .ok (gated.compileTree tree) ∧
      List.Forall₂ (gated.Renders spec) gatedPlaces
        ((gated.compileTree tree).blocks.flatMap LayerBlock.manipulators) := by
  rcases compilation_renders_entries compile_gated with
    ⟨other, expanded, -, -, -, -, renders⟩
  obtain rfl : tree = other := Except.ok.inj (expand_spec.symm.trans expanded)
  exact ⟨compile_gated, renders⟩

end Sample

end KeyLayers
