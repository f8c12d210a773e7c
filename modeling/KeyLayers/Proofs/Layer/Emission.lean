import KeyLayers.Proofs.Layer.Expansion
import Mathlib.Data.List.Basic

/-!
# One pass over the tree

`CompileOptions.compileTree` works out the conditions of an entry from its path.
The pass of this module works nothing out: an allocator hands out the variables
in turn, each layer hands the conditions on its variable down to what is inside
it, and the manipulators are put one behind the other.  Both come to the same
(`LayerSpec.compile_eq_onePass`), since no path is met twice: the variable of a
layer is allocated where those of the layers beside it are, and nothing inside it
has a variable by then.
-/

namespace KeyLayers

/-! ## The pass -/

/-- What has been allocated and emitted so far. -/
structure Emission where
  allocator : Allocator
  emitted : List Manipulator

/-- The variables of the layers among some entries, allocated one after the other. -/
def Allocator.allocateLayers (path : LeaderPath) :
    TreeEntries → Allocator → List (Key × StateVariable) × Allocator
  | [], allocator => ([], allocator)
  | (_, .leaf _) :: rest, allocator => allocateLayers path rest allocator
  | (key, .layer _) :: rest, allocator =>
      let (state, next) := allocator.allocate (path.child key)
      let (states, last) := allocateLayers path rest next
      ((key, state) :: states, last)

/-- The conditions that no layer but that of a key is held, out of some layers. -/
def inactiveBeside (states : List (Key × StateVariable)) (key : Key) : List Condition :=
  (states.filter (·.1 != key)).map (·.2.inactive)

namespace CompileOptions

variable (options : CompileOptions)

/-- The manipulator that sends the events of a leaf under some conditions. -/
def emitLeaf (conditions : List Condition) (key : Key) (leaf : Leaf) : Manipulator :=
  { description := leaf.description
    from_ := .anyModifiers key
    onPress := leaf.events
    conditions := conditions ++ options.contextConditions }

/-- The manipulators of the leaves among some entries. -/
def emitLeaves (conditions : List Condition) (entries : TreeEntries) : List Manipulator :=
  entries.filterMap fun
    | (key, .leaf leaf) => some (options.emitLeaf conditions key leaf)
    | (_, .layer _) => none

/-- The manipulator that sets and resets the variable of a layer under some conditions. -/
def emitActivation (conditions : List Condition) (layer : LeaderPath) (key : Key)
    (state : StateVariable) : Manipulator :=
  { description := some s!"Toggle {options.label} sublayer {layer.display}"
    from_ := .anyModifiers key
    onPress := [state.set 1]
    ifAlone := [.press key]
    onRelease := [state.set 0]
    conditions := conditions ++ options.contextConditions }

mutual

/--
Emits a layer and everything inside it: what gates the layer itself, the
conditions of the layers around it, and those of the layers beside it are given.
-/
def emitLayer (path : LeaderPath) (key : Key) (gate around beside : List Condition) :
    Tree → Emission → Emission
  | .leaf _, emission => emission
  | .layer entries, emission =>
      let layer := path.child key
      let (state, entered) := emission.allocator.allocate layer
      let activation := options.emitActivation (gate ++ beside) layer key state
      let held := around ++ [state.active]
      let (states, allocator) := Allocator.allocateLayers layer entries entered
      let inner := emitInner layer held states entries
        ⟨allocator, emission.emitted ++ [activation]⟩
      ⟨inner.allocator, inner.emitted ++ options.emitLeaves held entries⟩

/-- Emits the layers among some entries, one after the other. -/
def emitInner (path : LeaderPath) (held : List Condition)
    (states : List (Key × StateVariable)) : List (Key × Tree) → Emission → Emission
  | [], emission => emission
  | (_, .leaf _) :: rest, emission => emitInner path held states rest emission
  | (key, .layer entries) :: rest, emission =>
      emitInner path held states rest
        (emitLayer path key held held (inactiveBeside states key) (.layer entries) emission)

end

/-- Emits the blocks of the root. -/
def emitBlocks (states : List (Key × StateVariable)) :
    TreeEntries → Allocator → List LayerBlock × Allocator
  | [], allocator => ([], allocator)
  | (key, tree) :: rest, allocator =>
      let emission : Emission :=
        match tree with
        | .leaf leaf =>
            let idle := states.map (·.2.inactive)
            ⟨allocator, [options.emitLeaf (options.rootConditions ++ idle) key leaf]⟩
        | .layer entries =>
            options.emitLayer .root key options.rootConditions [] (inactiveBeside states key)
              (.layer entries) ⟨allocator, []⟩
      let kind : BlockKind := if tree.isLayer then .sublayer else .binding
      let (blocks, last) := emitBlocks states rest emission.allocator
      (⟨key, kind, emission.emitted⟩ :: blocks, last)

/-- Compiles an expanded tree in one pass. -/
def onePass (entries : TreeEntries) : Compilation :=
  let (states, allocator) :=
    Allocator.allocateLayers .root entries { base := options.base }
  let (blocks, last) := options.emitBlocks states entries allocator
  { blocks, states := last.allocated }

end CompileOptions

/-! ## What is allocated -/

/-- The allocator that has handed out the variables of some paths. -/
def Allocator.holding (base : String) (paths : List LeaderPath) : Allocator :=
  { base, allocated := paths.map fun path => (path, path.state base) }

theorem Allocator.lookup_holding (base : String) (paths : List LeaderPath)
    (path : LeaderPath) :
    (holding base paths).allocated.lookup path =
      if path ∈ paths then some (path.state base) else none := by
  induction paths with
  | nil => rfl
  | cons first rest ih =>
      show List.lookup path ((first, first.state base) :: (holding base rest).allocated) = _
      rw [List.lookup_cons, ih]
      by_cases same : path = first
      · simp [same]
      · simp [same, beq_eq_false_iff_ne.2 same]

/-- A path that has its variable keeps it. -/
theorem Allocator.allocate_of_mem {base : String} {paths : List LeaderPath}
    {path : LeaderPath} (known : path ∈ paths) :
    (holding base paths).allocate path = (path.state base, holding base paths) := by
  rw [allocate, lookup_holding, if_pos known]

theorem Allocator.allocate_of_notMem {base : String} {paths : List LeaderPath}
    {path : LeaderPath} (fresh : path ∉ paths) :
    (holding base paths).allocate path =
      (path.state base, holding base (paths ++ [path])) := by
  rw [allocate, lookup_holding, if_neg fresh]
  simp [holding]

/-- Layers beside each other are allocated in order, none of them for a second time. -/
theorem Allocator.allocateLayers_eq {base : String} {path : LeaderPath}
    {entries : TreeEntries} {paths : List LeaderPath} (unique : entries.Unambiguous)
    (fresh : ∀ key ∈ entries.layerKeys, path.child key ∉ paths) :
    allocateLayers path entries (holding base paths) =
      (entries.layerKeys.map fun key => (key, (path.child key).state base),
        holding base (paths ++ entries.layerKeys.map path.child)) := by
  induction entries generalizing paths with
  | nil => simp [allocateLayers, TreeEntries.layerKeys]
  | cons entry rest ih =>
      rcases entry with ⟨key, leaf | inner⟩
      · exact ih unique.tail fun other member =>
          fresh other (TreeEntries.mem_layerKeys_cons member)
      · have here : path.child key ∉ paths :=
          fresh key (TreeEntries.mem_layerKeys.2 ⟨inner, .head _⟩)
        have later : ∀ other ∈ TreeEntries.layerKeys rest,
            path.child other ∉ paths ++ [path.child key] := by
          intro other member again
          rcases List.mem_append.1 again with before | same
          · exact fresh other (TreeEntries.mem_layerKeys_cons member) before
          · exact unique.ne_of_mem member
              (LeaderPath.child_injective (List.mem_singleton.1 same)).2
        simp only [allocateLayers, allocate_of_notMem here, ih unique.tail later]
        simp [TreeEntries.layerKeys, Tree.isLayer]

/-! ## The layers inside an entry -/

mutual

/-- The layers inside an entry, in the order in which they get their variables. -/
def Tree.layersInside (path : LeaderPath) : Tree → List LeaderPath
  | .leaf _ => []
  | .layer entries =>
      (TreeEntries.layerKeys entries).map path.child ++ TreeEntries.layersBelow path entries

/-- The layers inside each of some entries. -/
def TreeEntries.layersBelow (path : LeaderPath) : List (Key × Tree) → List LeaderPath
  | [] => []
  | (key, tree) :: rest =>
      Tree.layersInside (path.child key) tree ++ TreeEntries.layersBelow path rest

end

theorem TreeEntries.mem_layersBelow_iff {path layer : LeaderPath} {entries : TreeEntries} :
    layer ∈ layersBelow path entries ↔
      ∃ key tree, (key, tree) ∈ entries ∧ layer ∈ Tree.layersInside (path.child key) tree := by
  induction entries with
  | nil => simp [layersBelow]
  | cons entry rest ih =>
      rw [layersBelow, List.mem_append, ih]
      constructor
      · rintro (here | ⟨key, tree, member, within⟩)
        · exact ⟨entry.1, entry.2, .head _, here⟩
        · exact ⟨key, tree, .tail _ member, within⟩
      · rintro ⟨key, tree, member, within⟩
        rcases List.mem_cons.1 member with rfl | later
        · exact Or.inl within
        · exact Or.inr ⟨key, tree, later, within⟩

theorem Tree.prefix_of_mem_layersInside {path layer : LeaderPath} {entries : TreeEntries}
    (member : layer ∈ (Tree.layer entries).layersInside path) :
    path.keys <+: layer.keys := by
  induction entries using TreeEntries.layer_induction generalizing path with
  | step entries ih =>
      rw [layersInside, List.mem_append, List.mem_map] at member
      rcases member with ⟨key, -, rfl⟩ | deeper
      · exact List.prefix_append _ _
      · rcases TreeEntries.mem_layersBelow_iff.1 deeper with ⟨key, leaf | inner, here, within⟩
        · simp [layersInside] at within
        · exact (List.prefix_append _ _).trans (ih key inner here within)

namespace CompileOptions

variable {options : CompileOptions}

mutual

theorem innerVariables_eq_map (path : LeaderPath) :
    ∀ tree : Tree, options.innerVariables path tree =
      (tree.layersInside path).map fun layer => (layer, layer.state options.base)
  | .leaf leaf => by
      rw [innerVariables, Tree.layersInside, List.map_nil]
  | .layer entries => by
      rw [innerVariables, Tree.layersInside, List.map_append, List.map_map,
        deeperVariables_eq_map path entries]
      rfl

theorem deeperVariables_eq_map (path : LeaderPath) :
    ∀ entries : List (Key × Tree), options.deeperVariables path entries =
      (TreeEntries.layersBelow path entries).map fun layer =>
        (layer, layer.state options.base)
  | [] => by
      rw [deeperVariables, TreeEntries.layersBelow, List.map_nil]
  | (key, tree) :: rest => by
      rw [deeperVariables, TreeEntries.layersBelow, List.map_append,
        innerVariables_eq_map (path.child key) tree, deeperVariables_eq_map path rest]

end

end CompileOptions

/-! ## Layers ahead of the pass -/

/-- Whether a layer has its variable while nothing inside it has. -/
structure Ready (paths : List LeaderPath) (layer : LeaderPath) : Prop where
  known : layer ∈ paths
  bare : ∀ other ∈ paths, layer.keys <+: other.keys → other = layer

section

variable {paths : List LeaderPath} {path : LeaderPath} {key : Key}

/-- Once layers beside each other have their variables, the pass may enter them. -/
theorem ready_of_allocated {keys : List Key}
    (bare : ∀ other ∈ paths, path.keys <+: other.keys → other = path)
    (member : key ∈ keys) : Ready (paths ++ keys.map path.child) (path.child key) where
  known := List.mem_append_right _ (List.mem_map_of_mem member)
  bare := by
    intro other among isPrefix
    rcases List.mem_append.1 among with before | new
    · have outer := bare other before ((List.prefix_append _ _).trans isPrefix)
      exact (LeaderPath.ne_of_child_prefix isPrefix outer).elim
    · rcases List.mem_map.1 new with ⟨second, -, rfl⟩
      rw [LeaderPath.key_of_child_prefix isPrefix List.prefix_rfl]

theorem notMem_of_bare (bare : ∀ other ∈ paths, path.keys <+: other.keys → other = path) :
    path.child key ∉ paths := by
  intro member
  have isPrefix : (path.child key).keys <+: (path.child key).keys := List.prefix_rfl
  exact LeaderPath.ne_of_child_prefix isPrefix (bare _ member (List.prefix_append _ _))

/-- What is allocated inside one layer leaves another one beside it as it was. -/
theorem Ready.beside {more : List LeaderPath} {other : Key}
    (ready : Ready paths (path.child other)) (different : other ≠ key)
    (inside : ∀ layer ∈ more, (path.child key).keys <+: layer.keys) :
    Ready (paths ++ more) (path.child other) where
  known := List.mem_append_left _ ready.known
  bare := by
    intro layer among isPrefix
    rcases List.mem_append.1 among with before | new
    · exact ready.bare layer before isPrefix
    · exact (different (LeaderPath.key_of_child_prefix isPrefix (inside layer new))).elim

/-- The layers that follow stay ready while the first one is emitted. -/
theorem ready_tail {inner rest : TreeEntries}
    (unique : TreeEntries.Unambiguous ((key, .layer inner) :: rest))
    (ready : ∀ other ∈ TreeEntries.layerKeys ((key, .layer inner) :: rest),
      Ready paths (path.child other)) :
    ∀ other ∈ rest.layerKeys,
      Ready (paths ++ (Tree.layer inner).layersInside (path.child key))
        (path.child other) := by
  intro other member
  exact (ready other (TreeEntries.mem_layerKeys_cons member)).beside
    (unique.ne_of_mem member) fun layer => Tree.prefix_of_mem_layersInside

end

/-! ## What is emitted -/

namespace CompileOptions

variable {options : CompileOptions}

/-- The variables of some layers under a path, each with its key. -/
def statesUnder (options : CompileOptions) (path : LeaderPath) (keys : List Key) :
    List (Key × StateVariable) :=
  keys.map fun key => (key, (path.child key).state options.base)

theorem inactive_statesUnder (path : LeaderPath) (keys : List Key) :
    (options.statesUnder path keys).map (·.2.inactive) = options.exclusions path keys := by
  rw [statesUnder, List.map_map]
  rfl

theorem inactiveBeside_statesUnder (path : LeaderPath) (keys : List Key) (key : Key) :
    inactiveBeside (options.statesUnder path keys) key =
      options.exclusions path (keys.filter (· != key)) := by
  rw [inactiveBeside, statesUnder, List.filter_map, List.map_map]
  rfl

theorem pathGate_child (path : LeaderPath) (key : Key) :
    options.pathGate (path.child key) =
      options.pathGate path ++ [((path.child key).state options.base).active] := by
  rw [pathGate, LeaderPath.chain_child, List.map_append]
  rfl

theorem gate_child (path : LeaderPath) (key : Key) :
    options.gate (path.child key) = options.pathGate (path.child key) := by
  rw [gate, if_neg]
  simp

/-- Whether a layer is emitted as its tree is compiled, whatever has been before it. -/
def Emits (options : CompileOptions) (path : LeaderPath) (layers : List Key) (key : Key)
    (entries : TreeEntries) : Prop :=
  ∀ paths emitted, Ready paths (path.child key) →
    options.emitLayer path key (options.gate path) (options.pathGate path)
        (options.exclusions path (layers.filter (· != key))) (.layer entries)
        ⟨.holding options.base paths, emitted⟩ =
      ⟨.holding options.base (paths ++ (Tree.layer entries).layersInside (path.child key)),
        emitted ++ options.manipulators path layers key (.layer entries)⟩

/-- The layers of a mapping are emitted one after the other. -/
theorem emitInner_eq {parent : LeaderPath} {last : Key} {layers : List Key}
    {rest : TreeEntries} {paths : List LeaderPath} (emitted : List Manipulator)
    (unique : rest.Unambiguous)
    (ready : ∀ key ∈ rest.layerKeys, Ready paths ((parent.child last).child key))
    (each : ∀ key inner, (key, .layer inner) ∈ rest →
      options.Emits (parent.child last) layers key inner) :
    options.emitInner (parent.child last) (options.pathGate (parent.child last))
        (options.statesUnder (parent.child last) layers) rest
        ⟨.holding options.base paths, emitted⟩ =
      ⟨.holding options.base (paths ++ TreeEntries.layersBelow (parent.child last) rest),
        emitted ++ options.nested (parent.child last) layers rest⟩ := by
  induction rest generalizing paths emitted with
  | nil => simp [emitInner, TreeEntries.layersBelow, nested]
  | cons entry rest ih =>
      have later := fun key inner member => each key inner (.tail _ member)
      rcases entry with ⟨key, leaf | inner⟩
      · rw [emitInner, nested, TreeEntries.layersBelow, Tree.layersInside, List.nil_append]
        exact ih emitted unique.tail (fun other member =>
          ready other (TreeEntries.mem_layerKeys_cons member)) later
      · have here := each key inner (.head _) paths emitted
          (ready key (TreeEntries.mem_layerKeys.2 ⟨inner, .head _⟩))
        rw [gate_child] at here
        rw [emitInner, inactiveBeside_statesUnder, here,
          ih _ unique.tail (ready_tail unique ready) later, nested, TreeEntries.layersBelow,
          List.append_assoc, List.append_assoc]

theorem emitLeaves_eq (path : LeaderPath) (key : Key) (layers : List Key)
    (entries : TreeEntries) :
    options.emitLeaves (options.pathGate (path.child key)) entries =
      options.dispatches (path.child key) layers entries := by
  rw [emitLeaves, dispatches]
  apply List.filterMap_congr
  rintro ⟨own, leaf | inner⟩ member
  · simp [emitLeaf, dispatch, leafConditions, gate_child]
  · rfl

/-- What one pass emits for a layer is what its tree is compiled to. -/
theorem emits_layer {entries : TreeEntries} (distinct : entries.Distinct)
    (path : LeaderPath) (layers : List Key) (key : Key) :
    options.Emits path layers key entries := by
  induction entries using TreeEntries.layer_induction generalizing path layers key with
  | step entries ih =>
      intro paths emitted ready
      -- the layer itself has its variable by now, those inside it get theirs here
      have allocated : Allocator.allocateLayers (path.child key) entries
            (.holding options.base paths) =
          (options.statesUnder (path.child key) entries.layerKeys,
            .holding options.base (paths ++ entries.layerKeys.map (path.child key).child)) :=
        Allocator.allocateLayers_eq distinct.unambiguous fun _ _ => notMem_of_bare ready.bare
      have inner := fun emitted => emitInner_eq emitted distinct.unambiguous
        (fun other member => ready_of_allocated ready.bare member)
        fun other inner member => ih other inner member (distinct.inner member)
          (path.child key) entries.layerKeys other
      have activated : options.emitActivation
          (options.gate path ++ options.exclusions path (layers.filter (· != key)))
          (path.child key) key ((path.child key).state options.base) =
            options.activation path layers key := rfl
      rw [emitLayer]
      simp only [Allocator.allocate_of_mem ready.known, allocated, ← pathGate_child, inner,
        emitLeaves_eq path key entries.layerKeys, activated]
      rw [manipulators, Tree.layersInside]
      simp only [List.append_assoc, List.cons_append, List.nil_append]

/-- The blocks of the root are emitted one after the other. -/
theorem emitBlocks_eq {layers : List Key} {rest : TreeEntries} {paths : List LeaderPath}
    (unique : rest.Unambiguous)
    (ready : ∀ key ∈ rest.layerKeys, Ready paths (LeaderPath.root.child key))
    (each : ∀ key inner, (key, .layer inner) ∈ rest → TreeEntries.Distinct inner) :
    options.emitBlocks (options.statesUnder .root layers) rest
        (.holding options.base paths) =
      (rest.map fun (key, tree) => options.block layers key tree,
        .holding options.base (paths ++ TreeEntries.layersBelow .root rest)) := by
  induction rest generalizing paths with
  | nil => simp [emitBlocks, TreeEntries.layersBelow]
  | cons entry rest ih =>
      have later := fun key inner member => each key inner (.tail _ member)
      rcases entry with ⟨key, leaf | inner⟩
      · have below := ih unique.tail (fun other member =>
          ready other (TreeEntries.mem_layerKeys_cons member)) later
        have leafBlock : options.emitLeaf
            (options.rootConditions ++ options.exclusions .root layers) key leaf =
              options.dispatch .root layers key leaf := rfl
        simp only [emitBlocks, inactive_statesUnder, below, leafBlock, List.map_cons, block,
          manipulators, TreeEntries.layersBelow, Tree.layersInside, List.nil_append]
      · have here : options.emitLayer .root key options.rootConditions []
              (options.exclusions .root (layers.filter (· != key))) (.layer inner)
              ⟨.holding options.base paths, []⟩ =
            ⟨.holding options.base
              (paths ++ (Tree.layer inner).layersInside (LeaderPath.root.child key)),
              options.manipulators .root layers key (.layer inner)⟩ :=
          emits_layer (each key inner (.head _)) .root layers key paths []
            (ready key (TreeEntries.mem_layerKeys.2 ⟨inner, .head _⟩))
        have below := ih unique.tail (ready_tail unique ready) later
        simp only [emitBlocks, inactiveBeside_statesUnder, here, below, List.map_cons, block,
          TreeEntries.layersBelow, List.append_assoc]

/-- One pass over a tree gives the blocks and the variables that it is compiled to. -/
theorem onePass_eq {tree : TreeEntries} (distinct : tree.Distinct) :
    options.onePass tree = options.compileTree tree := by
  have bare : ∀ other ∈ ([] : List LeaderPath),
      LeaderPath.root.keys <+: other.keys → other = .root := by
    intro other impossible
    cases impossible
  have allocated : Allocator.allocateLayers .root tree { base := options.base } =
      (options.statesUnder .root tree.layerKeys,
        .holding options.base (tree.layerKeys.map LeaderPath.root.child)) :=
    Allocator.allocateLayers_eq distinct.unambiguous fun _ _ => notMem_of_bare bare
  have emitted : options.emitBlocks (options.statesUnder .root tree.layerKeys) tree
        (.holding options.base (tree.layerKeys.map LeaderPath.root.child)) =
      ((options.compileTree tree).blocks,
        .holding options.base ((Tree.layer tree).layersInside .root)) :=
    emitBlocks_eq distinct.unambiguous (fun key member => ready_of_allocated bare member)
      fun key inner member => distinct.inner member
  simp only [onePass, allocated, emitted]
  rw [compileTree, innerVariables_eq_map]
  rfl

end CompileOptions

/-- A specification is compiled in one pass over its tree. -/
theorem LayerSpec.compile_eq_onePass (spec : LayerSpec) (options : CompileOptions) :
    spec.compile options = do
      options.check
      return options.onePass (← spec.expand) := by
  rw [compile]
  cases expanded : spec.expand with
  | error failure => rfl
  | ok tree =>
      show _ = options.check >>= fun _ => Except.ok (options.onePass tree)
      rw [CompileOptions.onePass_eq (distinct_of_expand expanded)]
      rfl

end KeyLayers
