import KeyLayers.Proofs.Engine.Runs
import KeyLayers.Proofs.Layer.Correspondence
import KeyLayers.Proofs.Layer.Gates

/-!
# The tree read back off the rules

`recoverPaths` reads rules from the first manipulator to the last and remembers
which variable each one sets to 1.  A manipulator stands in the layer that its
last condition on such a variable asks for, and its input leads one key further.

What a compilation emits is read back to the addresses of the entries, each one
once: a layer is entered before anything is gated by it, the gates stand in the
order of the path, and no two layers share a variable.  Rules therefore determine
which keys lead where, though not in which order layers and leaves of one layer
were written.
-/

namespace KeyLayers

/-! ## Reading rules -/

/-- The variables set to 1 so far, each with the path that it stands for. -/
abbrev Entered := List (String × LeaderPath)

/-- The layer that a condition asks for, if its variable has been set before. -/
def Condition.layer? (entered : Entered) : Condition → Option LeaderPath
  | .variableIf name value => if value = 1 then entered.lookup name else none
  | _ => none

namespace Manipulator

/-- The path of the last layer that a manipulator asks for, extended by its key. -/
def recover (entered : Entered) (manipulator : Manipulator) : LeaderPath :=
  let layers := manipulator.conditions.filterMap (Condition.layer? entered)
  (layers.getLast?.getD .root).child manipulator.from_.key

/-- The paths of some manipulators, read in order. -/
def recoverAll (entered : Entered) : List Manipulator → List LeaderPath
  | [] => []
  | manipulator :: rest =>
      let path := manipulator.recover entered
      path :: recoverAll ((manipulator.setsOnPress 1).map (·, path) ++ entered) rest

end Manipulator

/-- The paths of all manipulators of some rules. -/
def recoverPaths (rules : List Rule) : List LeaderPath :=
  Manipulator.recoverAll [] (rules.flatMap Rule.manipulators)

/-! ## The keys of a tree -/

namespace TreeEntries

/-- Whether a path leads to an entry. -/
def Binds (tree : TreeEntries) (path : LeaderPath) : Prop :=
  ∃ place, tree.Has place ∧ place.address = path

/-- Whether two trees bind the same paths, and lead to layers by the same ones. -/
structure SameKeys (left right : TreeEntries) : Prop where
  entries : ∀ path, left.Binds path ↔ right.Binds path
  layers : ∀ path : LeaderPath,
    (left.layerAt? path.keys).isSome ↔ (right.layerAt? path.keys).isSome

theorem mem_addresses_iff {tree : TreeEntries} (distinct : tree.Distinct)
    {path : LeaderPath} : path ∈ tree.places.map TreePlace.address ↔ tree.Binds path := by
  rw [List.mem_map, Binds]
  exact exists_congr fun place => and_congr_left' (mem_places_iff distinct)

/-- A path leads to a layer if it is that of the root, or if some place enters the layer. -/
theorem isSome_layerAt?_iff {tree : TreeEntries} (distinct : tree.Distinct)
    {path : LeaderPath} :
    (tree.layerAt? path.keys).isSome ↔
      path = .root ∨ path ∈ tree.places.flatMap TreePlace.entered := by
  rw [List.mem_flatMap, Option.isSome_iff_exists]
  induction path using LeaderPath.child_induction with
  | outermost => simp
  | further path key _ =>
      rw [or_iff_right (LeaderPath.child_ne_root path key), LeaderPath.keys_child]
      constructor
      · rintro ⟨inner, found⟩
        rcases layerAt?_concat.1 found with ⟨entries, around, hit⟩
        refine ⟨⟨path, entries.layerKeys, key, .layer inner⟩, ?_, List.mem_singleton.2 rfl⟩
        exact (mem_places_iff distinct).2 ⟨entries, around, rfl, mem_of_lookup hit⟩
      · rintro ⟨⟨parent, layers, last, leaf | inner⟩, member, enters⟩
        · cases enters
        · rcases (mem_places_iff distinct).1 member with ⟨entries, around, -, here⟩
          obtain ⟨rfl, rfl⟩ : path = parent ∧ key = last :=
            LeaderPath.child_injective (List.mem_singleton.1 enters)
          have unambiguous := distinct _ _ around
          exact ⟨inner, layerAt?_concat.2
            ⟨entries, around, (lookup_eq_some_iff unambiguous).2 here⟩⟩

end TreeEntries

/-! ## One manipulator -/

/-- What has been read: variables of layers only, and those of all known layers. -/
structure Entered.Records (options : CompileOptions) (entered : Entered)
    (known : List LeaderPath) : Prop where
  sound : ∀ name layer, entered.lookup name = some layer →
    name = (layer.state options.base).name
  complete : ∀ layer ∈ known, entered.lookup (layer.state options.base).name = some layer

namespace CompileOptions

variable {options : CompileOptions} {entered : Entered} {known : List LeaderPath}

theorem layer?_active {layer : LeaderPath} (records : entered.Records options known)
    (member : layer ∈ known) :
    (layer.state options.base).active.layer? entered = some layer :=
  records.complete layer member

/-- A condition about no layer asks for none. -/
theorem layer?_foreign {condition : Condition} (records : entered.Records options known)
    (foreign : options.owns condition.variableName = false) :
    condition.layer? entered = none := by
  cases condition with
  | variableIf name value =>
      rw [Condition.layer?]
      split
      · cases hit : entered.lookup name with
        | none => rfl
        | some layer =>
            rw [Condition.variableName, records.sound name layer hit,
              options.owns_state layer] at foreign
            cases foreign
      · rfl
  | variableUnless name value => rfl
  | frontmostIf patterns => rfl
  | frontmostUnless patterns => rfl

theorem filterMap_layer?_given {conditions : List Condition} (apart : options.Apart)
    (records : entered.Records options known)
    (given : conditions ⊆ options.rootConditions ++ options.contextConditions) :
    conditions.filterMap (Condition.layer? entered) = [] := by
  apply List.filterMap_eq_nil_iff.2
  intro condition member
  exact layer?_foreign records (apart condition (given member))

theorem filterMap_layer?_exclusions (path : LeaderPath) (keys : List Key) :
    (options.exclusions path keys).filterMap (Condition.layer? entered) = [] := by
  rw [exclusions, List.filterMap_map]
  apply List.filterMap_eq_nil_iff.2
  intro key member
  rfl

theorem filterMap_layer?_gate {path : LeaderPath} (apart : options.Apart)
    (records : entered.Records options known)
    (around : ∀ layer ∈ path.chain, layer ∈ known) :
    (options.gate path).filterMap (Condition.layer? entered) = path.chain := by
  rw [gate]
  split
  · next outermost =>
      have isRoot : path = .root := LeaderPath.ext (List.isEmpty_iff.1 outermost)
      rw [isRoot, LeaderPath.chain_root]
      exact filterMap_layer?_given apart records (List.subset_append_left _ _)
  · rw [pathGate, List.filterMap_map]
    calc path.chain.filterMap (Condition.layer? entered ∘ fun layer =>
            (layer.state options.base).active)
        = path.chain.filterMap some :=
          List.filterMap_congr fun layer member => layer?_active records (around layer member)
      _ = path.chain := List.filterMap_some

/-- The layers that an entry asks for are those on its path, in order. -/
theorem filterMap_layer?_conditions {place : TreePlace} (apart : options.Apart)
    (records : entered.Records options known)
    (around : ∀ layer ∈ place.path.chain, layer ∈ known) :
    (options.manipulatorOf place).conditions.filterMap (Condition.layer? entered) =
      place.path.chain := by
  have context : options.contextConditions.filterMap (Condition.layer? entered) = [] :=
    filterMap_layer?_given apart records (List.subset_append_right _ _)
  rcases place with ⟨path, layers, key, leaf | inner⟩
  · have beside : (if path.keys.isEmpty then options.exclusions path layers
        else []).filterMap (Condition.layer? entered) = [] := by
      split
      · exact filterMap_layer?_exclusions path layers
      · rfl
    show (options.leafConditions path layers).filterMap _ = path.chain
    rw [leafConditions, List.filterMap_append, List.filterMap_append,
      filterMap_layer?_gate apart records around, beside, context, List.append_nil,
      List.append_nil]
  · show (options.activationConditions path layers key).filterMap _ = path.chain
    rw [activationConditions, List.filterMap_append, List.filterMap_append,
      filterMap_layer?_gate apart records around, filterMap_layer?_exclusions, context,
      List.append_nil, List.append_nil]

theorem recover_manipulatorOf {place : TreePlace} (apart : options.Apart)
    (records : entered.Records options known)
    (around : ∀ layer ∈ place.path.chain, layer ∈ known) :
    (options.manipulatorOf place).recover entered = place.address := by
  rw [Manipulator.recover, filterMap_layer?_conditions apart records around,
    LeaderPath.getLast?_chain, from_manipulatorOf]
  rfl

end CompileOptions

theorem Entered.Records.nil (options : CompileOptions) : Entered.Records options [] [] where
  sound := by
    intro name layer hit
    cases hit
  complete := by
    intro layer member
    cases member

/-- Entering a layer records it. -/
theorem Entered.Records.cons {options : CompileOptions} {entered : Entered}
    {known : List LeaderPath} (records : entered.Records options known)
    (layer : LeaderPath) :
    Entered.Records options (((layer.state options.base).name, layer) :: entered)
      (layer :: known) where
  sound := by
    intro name other hit
    rw [List.lookup_cons] at hit
    split at hit
    · next same =>
        cases hit
        exact eq_of_beq same
    · exact records.sound name other hit
  complete := by
    intro other member
    rw [List.lookup_cons]
    split
    · next same =>
        have names := eq_of_beq same
        rw [LeaderPath.state_name_injective options.base names]
    · next different =>
        rcases List.mem_cons.1 member with rfl | old
        · simp at different
        · exact records.complete other old

/-! ## A whole run -/

/-- The variables that an entry sets to 1: that of the layer it enters, if it enters one. -/
def TreePlace.setNames (base : String) (place : TreePlace) : List String :=
  place.entered.map fun layer => (layer.state base).name

/-- Performing an action sets no variable. -/
theorem Action.variableSet?_encode (action : Action) (value : Int) :
    action.encode.filterMap (Event.variableSet? value) = [] := by
  cases action <;> rfl

theorem LayerSpec.Plain.setsOnPress {spec : LayerSpec} {tree : TreeEntries}
    {place : TreePlace} (plain : spec.Plain) (options : CompileOptions)
    (expanded : spec.expand = .ok tree) (has : tree.Has place) :
    (options.manipulatorOf place).setsOnPress 1 = place.setNames options.base := by
  rcases place with ⟨path, layers, key, leaf | inner⟩
  · rcases has with ⟨entries, found, -, member⟩
    rcases plain.exists_action expanded found member with ⟨action, events⟩
    show leaf.events.filterMap (Event.variableSet? 1) = []
    rw [events, Action.variableSet?_encode]
  · rfl

/-- Entries of known layers, read in order, are recovered at their addresses. -/
theorem TreeEntries.Introduced.recoverAll {options : CompileOptions} {entered : Entered}
    {known : List LeaderPath} {places : List TreePlace} (apart : options.Apart)
    (introduced : Introduced known places) (records : entered.Records options known)
    (sets : ∀ place ∈ places,
      (options.manipulatorOf place).setsOnPress 1 = place.setNames options.base) :
    Manipulator.recoverAll entered (places.map options.manipulatorOf) =
      places.map TreePlace.address := by
  -- the record grows with every layer that is entered, and the known layers with it
  induction introduced generalizing entered with
  | nil known => rfl
  | @cons known place rest around later ih =>
      rw [List.forall_mem_cons] at sets
      have here := CompileOptions.recover_manipulatorOf apart records around
      rw [List.map_cons, List.map_cons, Manipulator.recoverAll, here, sets.1]
      refine congrArg (place.address :: ·) (ih ?_ sets.2)
      by_cases isLayer : place.tree.isLayer
      · have enters : place.entered = [place.address] := if_pos isLayer
        rw [TreePlace.setNames, enters]
        exact records.cons place.address
      · have enters : place.entered = [] := if_neg isLayer
        rw [TreePlace.setNames, enters]
        exact records

namespace LayerSpec

variable {spec : LayerSpec} {options : CompileOptions} {compilation : Compilation}
  {tree : TreeEntries}

/-- The rules of a specification are read back to the addresses of its entries. -/
theorem recoverPaths_rules (label : String) (plain : spec.Plain) (apart : options.Apart)
    (expanded : spec.expand = .ok tree) :
    recoverPaths ((options.compileTree tree).rules label) =
      tree.places.map TreePlace.address := by
  rw [recoverPaths, Compilation.rules, CompileOptions.manipulators_compileTree]
  apply (TreeEntries.introduced_places tree).recoverAll apart (.nil options)
  intro place member
  exact plain.setsOnPress options expanded
    ((TreeEntries.mem_places_iff (distinct_of_expand expanded)).1 member)

/-- The rules tell which entries are layers, too: those that set a variable. -/
theorem setNames_rules (label : String) (plain : spec.Plain)
    (expanded : spec.expand = .ok tree) :
    (((options.compileTree tree).rules label).flatMap Rule.manipulators).flatMap
        (·.setsOnPress 1) =
      (tree.places.flatMap TreePlace.entered).map fun layer =>
        (layer.state options.base).name := by
  rw [Compilation.rules, CompileOptions.manipulators_compileTree, List.flatMap_map,
    List.map_flatMap]
  apply List.flatMap_congr
  intro place member
  exact plain.setsOnPress options expanded
    ((TreeEntries.mem_places_iff (distinct_of_expand expanded)).1 member)

/-- Equal rules come from trees with the same keys. -/
theorem sameKeys_of_rules {other : LayerSpec} {otherTree : TreeEntries} {label : String}
    (apart : options.Apart) (plain : spec.Plain) (expanded : spec.expand = .ok tree)
    (otherPlain : other.Plain) (otherExpanded : other.expand = .ok otherTree)
    (same : (options.compileTree tree).rules label =
      (options.compileTree otherTree).rules label) :
    tree.SameKeys otherTree := by
  have distinct := distinct_of_expand expanded
  have otherDistinct := distinct_of_expand otherExpanded
  have addresses : tree.places.map TreePlace.address =
      otherTree.places.map TreePlace.address := by
    rw [← recoverPaths_rules label plain apart expanded, same,
      recoverPaths_rules label otherPlain apart otherExpanded]
  have entered : tree.places.flatMap TreePlace.entered =
      otherTree.places.flatMap TreePlace.entered := by
    have names : Function.Injective fun layer : LeaderPath =>
        (layer.state options.base).name := fun _ _ =>
      LeaderPath.state_name_injective options.base
    apply List.map_injective_iff.2 names
    rw [← setNames_rules label plain expanded, same,
      setNames_rules label otherPlain otherExpanded]
  constructor
  · intro path
    rw [← TreeEntries.mem_addresses_iff distinct, addresses,
      TreeEntries.mem_addresses_iff otherDistinct]
  · intro path
    rw [TreeEntries.isSome_layerAt?_iff distinct, entered,
      TreeEntries.isSome_layerAt?_iff otherDistinct]

end LayerSpec

/--
Without raw events, and with options that are about no variable of the layers,
the rules of a specification are read back to the paths of its entries, layers
and leaves alike, each path once.  Specifications with the same rules therefore
have trees with the same keys.
-/
theorem rules_determine_keys :
    (∀ (spec : LayerSpec) (options : CompileOptions) (compilation : Compilation),
      spec.Plain → options.Apart → spec.compile options = .ok compilation →
        ∃ tree, spec.expand = .ok tree ∧ ∀ label,
          (recoverPaths (compilation.rules label)).Nodup ∧
            ∀ path, path ∈ recoverPaths (compilation.rules label) ↔ tree.Binds path) ∧
    ∀ (spec other : LayerSpec) (options : CompileOptions)
      (compilation otherCompilation : Compilation) (label : String),
      spec.Plain → other.Plain → options.Apart →
        spec.compile options = .ok compilation →
          other.compile options = .ok otherCompilation →
            compilation.rules label = otherCompilation.rules label →
              ∃ tree otherTree, spec.expand = .ok tree ∧ other.expand = .ok otherTree ∧
                tree.SameKeys otherTree := by
  constructor
  · intro spec options compilation plain apart compiled
    rcases LayerSpec.compile_eq_ok_iff.1 compiled with ⟨-, tree, expanded, rfl⟩
    have distinct := LayerSpec.distinct_of_expand expanded
    refine ⟨tree, expanded, fun label => ?_⟩
    rw [LayerSpec.recoverPaths_rules label plain apart expanded]
    exact ⟨TreeEntries.nodup_addresses distinct,
      fun path => TreeEntries.mem_addresses_iff distinct⟩
  · intro spec other options compilation otherCompilation label plain otherPlain apart
      compiled otherCompiled same
    rcases LayerSpec.compile_eq_ok_iff.1 compiled with ⟨-, tree, expanded, rfl⟩
    rcases LayerSpec.compile_eq_ok_iff.1 otherCompiled with
      ⟨-, otherTree, otherExpanded, rfl⟩
    exact ⟨tree, otherTree, expanded, otherExpanded,
      LayerSpec.sameKeys_of_rules apart plain expanded otherPlain otherExpanded same⟩

namespace Sample

/-- The layers of `spec`, a leaf of the first one written before the layer beside it. -/
def reordered : LayerSpec where
  root :=
    [("a", .layer [("l", .action launch), ("b", .layer [("n", .action launch)])]),
      ("s", .layer [("n", .action launch)])]

def reorderedTree : TreeEntries :=
  [(outer, .layer [(lock, .leaf leaf), (inner, .layer innerTree)]), (side, .layer innerTree)]

theorem expand_reordered : reordered.expand = .ok reorderedTree := by
  have inOuter : (inner == lock) = false := by decide
  have inRoot : (side == outer) = false := by decide
  simp [LayerSpec.expand, reordered, reorderedTree, innerTree, leaf, LayerSpec.resolveKeys,
    LayerSpec.expandRoot, LayerSpec.expandNode, LayerSpec.expandLayer,
    LayerSpec.expandEntries, LayerSpec.checkLeaf_eq, LayerSpec.checkLeaves,
    LayerNode.check, LayerSpec.checkReference, Claims.add, List.lookup_nil,
    List.lookup_cons, parse_outer, parse_inner, parse_side, parse_lock, parse_note,
    check_launch, inOuter, inRoot, bind, Except.bind, Except.mapError, Except.map, pure,
    Except.pure]

theorem compile_reordered : reordered.compile gated = .ok (gated.compileTree reorderedTree) :=
  LayerSpec.compile_eq_ok_iff.2 ⟨by decide +kernel, reorderedTree, expand_reordered, rfl⟩

theorem plain_reordered : reordered.Plain := by
  constructor
  · intro entry member
    rcases List.mem_pair.1 member with rfl | rfl
    · apply LayerNode.Plain.layer
      intro other within
      rcases List.mem_pair.1 within with rfl | rfl
      · exact .action launch
      · exact plain_noteLayer
    · exact plain_noteLayer
  · intro definition member
    cases member

theorem gated_rules_determine_keys :
    spec.Plain ∧ reordered.Plain ∧ gated.Apart ∧
      spec.compile gated = .ok (gated.compileTree tree) ∧
      reordered.compile gated = .ok (gated.compileTree reorderedTree) ∧
      (gated.compileTree tree).rules "Hyper" =
        (gated.compileTree reorderedTree).rules "Hyper" ∧
      (∀ path, path ∈ recoverPaths ((gated.compileTree tree).rules "Hyper") ↔
        tree.Binds path) ∧
      tree.SameKeys reorderedTree := by
  have apart : gated.Apart := by decide
  have same : (gated.compileTree tree).rules "Hyper" =
      (gated.compileTree reorderedTree).rules "Hyper" := rfl
  rcases rules_determine_keys with ⟨recovered, determined⟩
  rcases recovered spec gated _ plain_spec apart compile_gated with ⟨read, expanded, paths⟩
  obtain rfl : tree = read := Except.ok.inj (expand_spec.symm.trans expanded)
  rcases determined spec reordered gated _ _ "Hyper" plain_spec plain_reordered apart
    compile_gated compile_reordered same with ⟨left, right, leftTree, rightTree, keys⟩
  obtain rfl : tree = left := Except.ok.inj (expand_spec.symm.trans leftTree)
  obtain rfl : reorderedTree = right := Except.ok.inj (expand_reordered.symm.trans rightTree)
  exact ⟨plain_spec, plain_reordered, apart, compile_gated, compile_reordered, same,
    (paths "Hyper").2, keys⟩

end Sample

end KeyLayers
