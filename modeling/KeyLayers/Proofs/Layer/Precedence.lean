import KeyLayers.Proofs.Engine
import KeyLayers.Proofs.Layer.Expansion
import KeyLayers.Proofs.Layer.Gates
import Mathlib.Data.List.Flatten
import Mathlib.Data.List.Pairwise

/-!
# Which manipulators are never reached

A manipulator covers a later one if it listens for the same input and asks for
nothing that the later one does not ask for: whenever the later one fits, the
earlier one fits as well (`Manipulator.Covers.fits`).

Of two entries on one key the one further in asks for more layers, and no leaf
comes before what is in the layers beside it (`TreeEntries.leavesLast_places`), so
a leaf covers nothing.  What is left is the activation of a layer that nothing
excludes and an entry inside that layer on the layer's own key, which is held down
as long as the layer is (`LayerSpec.covers_iff_reenters`).
-/

namespace KeyLayers

/-! ## Covering -/

/-- Whether a manipulator fires whenever another one that comes later could. -/
structure Manipulator.Covers (earlier later : Manipulator) : Prop where
  input : earlier.from_ = later.from_
  conditions : earlier.conditions ⊆ later.conditions

/-- Where a covered manipulator fits, so does the one that covers it. -/
theorem Manipulator.Covers.fits {earlier later : Manipulator} {surroundings : Surroundings}
    {key : Key} (covers : earlier.Covers later) (fits : later.fits surroundings key) :
    earlier.fits surroundings key := by
  rw [Manipulator.fits, Bool.and_eq_true, List.all_eq_true] at fits ⊢
  rw [covers.input]
  exact ⟨fits.1, fun condition member => fits.2 condition (covers.conditions member)⟩

/-- A covered manipulator never fires: the one that covers it would, or one before that. -/
theorem Manipulator.Covers.exists_firstFit {earlier later : Manipulator} {rules : List Rule}
    {before after : List Manipulator} {surroundings : Surroundings} {key : Key}
    (order : rules.flatMap Rule.manipulators = before ++ earlier :: after)
    (covers : earlier.Covers later) (fits : later.fits surroundings key) :
    ∃ fired ∈ before ++ [earlier], firstFit rules surroundings key = some fired := by
  have found : ((before ++ [earlier]).find? (·.fits surroundings key)).isSome = true :=
    List.find?_isSome.2 ⟨earlier, by simp, covers.fits fits⟩
  rcases Option.isSome_iff_exists.1 found with ⟨fired, found⟩
  refine ⟨fired, List.mem_of_find?_eq_some found, ?_⟩
  rw [firstFit, order, List.append_cons, List.find?_append, found, Option.some_or]

instance (earlier later : Manipulator) : Decidable (earlier.Covers later) :=
  decidable_of_iff
    (earlier.from_ = later.from_ ∧ ∀ condition ∈ earlier.conditions,
      condition ∈ later.conditions)
    ⟨fun both => ⟨both.1, fun condition => both.2 condition⟩,
      fun covers => ⟨covers.input, fun _ member => covers.conditions member⟩⟩

/-! ## Leaves after everything further in -/

/-- Whether a place is inside one of the layers directly under a path. -/
def TreePlace.IsBelow (place : TreePlace) (path : LeaderPath) : Prop :=
  ∃ key, (path.child key).keys <+: place.path.keys

/-- Whether nothing further in than an earlier leaf is at the later place. -/
def TreePlace.LeavesLast (earlier later : TreePlace) : Prop :=
  earlier.tree.isLayer = false → ¬ later.IsBelow earlier.path

namespace TreeEntries

/-- What is below a path has a longer path. -/
theorem not_isBelow_of_prefix {place : TreePlace} {path : LeaderPath}
    (isPrefix : place.path.keys <+: path.keys) : ¬ place.IsBelow path := by
  rintro ⟨key, below⟩
  exact LeaderPath.ne_of_child_prefix (below.trans isPrefix) rfl

/-- An entry that is not in some layer itself is inside one of the layers there. -/
theorem isBelow_of_mem_places {path : LeaderPath} {layers : List Key} {key : Key}
    {bound : Tree} {place : TreePlace} (within : place ∈ bound.places path layers key)
    (deeper : place.path ≠ path) : (path.child key).keys <+: place.path.keys := by
  cases bound with
  | leaf leaf =>
      rw [Tree.places, List.mem_singleton] at within
      rw [within] at deeper
      exact (deeper rfl).elim
  | layer inner =>
      rw [places_layer, List.mem_cons] at within
      rcases within with rfl | within
      · exact (deeper rfl).elim
      · exact path_of_mem_inside within

/-- Entry by entry, no leaf inside a layer comes before anything further in than itself. -/
theorem leavesLast_flatMap (path : LeaderPath) (layers : List Key) {entries : TreeEntries}
    (unique : entries.Unambiguous)
    (inner : ∀ key inside', (key, Tree.layer inside') ∈ entries →
      (inside (path.child key) inside').Pairwise TreePlace.LeavesLast) :
    (entries.flatMap fun entry => entry.2.places path layers entry.1).Pairwise
      fun earlier later => earlier.path ≠ path → earlier.LeavesLast later := by
  rw [List.pairwise_flatMap]
  constructor
  · rintro ⟨key, leaf | below⟩ member
    · simp [Tree.places]
    · rw [places_layer, List.pairwise_cons]
      constructor
      · intro later _ deeper
        exact (deeper rfl).elim
      · apply (inner key below member).imp
        intro earlier later settled _
        exact settled
  · have different : entries.Pairwise fun left right => left.1 ≠ right.1 :=
      List.pairwise_map.1 unique
    apply different.imp
    -- what is below a leaf of the first entry has an address that begins with its key
    rintro ⟨first, left⟩ ⟨second, right⟩ apart earlier inLeft later inRight deeper - below
    rcases below with ⟨key, below⟩
    have within := isBelow_of_mem_places inLeft deeper
    have start : (path.child first).keys <+: later.address.keys :=
      (within.trans (List.prefix_append _ _)).trans
        (below.trans (List.prefix_append _ _))
    exact apart (LeaderPath.key_of_child_prefix start (address_of_mem_places inRight))

theorem leavesLast_inside {entries : TreeEntries} (distinct : entries.Distinct)
    (path : LeaderPath) : (inside path entries).Pairwise TreePlace.LeavesLast := by
  induction entries using layer_induction generalizing path with
  | step entries ih =>
      have layers : Unambiguous (entries.filter (·.2.isLayer)) :=
        distinct.unambiguous.sublist (List.filter_sublist.map _)
      have own : ∀ place ∈ (entries.filter (!·.2.isLayer)).map (fun entry =>
          (⟨path, entries.layerKeys, entry.1, entry.2⟩ : TreePlace)), place.path = path := by
        intro place member
        rcases List.mem_map.1 member with ⟨entry, -, rfl⟩
        rfl
      rw [inside, nestedPlaces_eq_flatMap, List.pairwise_append]
      refine ⟨?_, ?_, ?_⟩
      · have nested := leavesLast_flatMap path entries.layerKeys layers
          fun key inner member =>
            ih key inner (List.mem_of_mem_filter member)
              (distinct.inner (List.mem_of_mem_filter member)) _
        apply nested.imp_of_mem
        -- a leaf among what is inside the layers is not in this layer itself
        intro earlier later member _ settled isLeaf
        refine settled ?_ isLeaf
        rcases List.mem_flatMap.1 member with ⟨⟨key, leaf | inner⟩, among, within⟩
        · simp [Tree.isLayer] at among
        · rw [places_layer, List.mem_cons] at within
          rcases within with rfl | within
          · cases isLeaf
          · exact LeaderPath.ne_of_child_prefix (path_of_mem_inside within)
      · apply List.pairwise_of_forall_mem_list
        intro earlier first later second _
        apply not_isBelow_of_prefix
        have same : later.path = earlier.path := by rw [own earlier first, own later second]
        exact same ▸ List.prefix_rfl
      · intro earlier first later second _
        apply not_isBelow_of_prefix
        rw [own later second]
        rcases List.mem_flatMap.1 first with ⟨⟨key, bound⟩, -, within⟩
        by_cases here : earlier.path = path
        · exact here ▸ List.prefix_rfl
        · exact (List.prefix_append path.keys [key]).trans (isBelow_of_mem_places within here)

/-- Below the root, no leaf comes before anything further in than itself. -/
theorem leavesLast_places {tree : TreeEntries} (distinct : tree.Distinct) :
    tree.places.Pairwise fun earlier later =>
      earlier.path ≠ .root → earlier.LeavesLast later :=
  leavesLast_flatMap .root tree.layerKeys distinct.unambiguous fun _ _ member =>
    leavesLast_inside (distinct.inner member) _

end TreeEntries

/-! ## Entries on the key of their own layer -/

theorem TreePlace.excluded_subset (place : TreePlace) : place.excluded ⊆ place.layers := by
  rw [excluded]
  split
  · exact List.filter_subset_self _
  · split
    · exact List.Subset.refl _
    · exact List.nil_subset _

/-- Who is further in than an entry is inside one of the layers beside the entry. -/
theorem TreeEntries.Has.exists_layer {tree : TreeEntries} {place other : TreePlace}
    (here : tree.Has place) (there : tree.Has other)
    (outer : place.path.keys <+: other.path.keys) (deeper : place.path ≠ other.path) :
    ∃ key ∈ place.layers, (place.path.child key).keys <+: other.path.keys := by
  rcases here with ⟨entries, found, layers, -⟩
  rcases there with ⟨last, reached, -⟩
  rcases outer with ⟨_ | ⟨key, rest⟩, keys⟩
  · rw [List.append_nil] at keys
    exact (deeper (LeaderPath.ext keys)).elim
  · refine ⟨key, ?_, rest, ?_⟩
    · rw [← keys, layerAt?_append, found, Option.bind_some, layerAt?_cons_iff] at reached
      rcases reached with ⟨inner, bound, -⟩
      rw [layers]
      exact mem_layerKeys.2 ⟨inner, mem_of_lookup bound⟩
    · rw [LeaderPath.keys_child, List.append_assoc, List.singleton_append, keys]

namespace CompileOptions

/-- Whether the options ask for no layer to be held and for none not to be held. -/
def Ignores (options : CompileOptions) (states : List (LeaderPath × StateVariable)) : Prop :=
  ∀ entry ∈ states,
    entry.2.active ∉ options.rootConditions ++ options.contextConditions ∧
      entry.2.inactive ∉ options.rootConditions ++ options.contextConditions

/--
Whether an entry is inside a layer and on the key that the layer is entered by,
while neither another layer nor a condition of the root keeps that key from
entering the layer again.
-/
structure Reenters (options : CompileOptions) (earlier later : TreePlace) : Prop where
  isLayer : earlier.tree.isLayer = true
  within : earlier.address.keys <+: later.path.keys
  key : earlier.key = later.key
  alone : ∀ other ∈ earlier.layers, other = earlier.key
  ungated : earlier.path = .root → options.rootConditions ⊆ options.contextConditions

instance (options : CompileOptions) (states : List (LeaderPath × StateVariable)) :
    Decidable (options.Ignores states) :=
  inferInstanceAs (Decidable (∀ entry ∈ states,
    entry.2.active ∉ options.rootConditions ++ options.contextConditions ∧
      entry.2.inactive ∉ options.rootConditions ++ options.contextConditions))

instance (options : CompileOptions) (earlier later : TreePlace) :
    Decidable (options.Reenters earlier later) :=
  decidable_of_iff
    (earlier.tree.isLayer = true ∧ earlier.address.keys <+: later.path.keys ∧
      earlier.key = later.key ∧ (∀ other ∈ earlier.layers, other = earlier.key) ∧
        (earlier.path = .root →
          ∀ condition ∈ options.rootConditions, condition ∈ options.contextConditions))
    ⟨fun ⟨isLayer, within, key, alone, ungated⟩ =>
        ⟨isLayer, within, key, alone, fun outermost condition => ungated outermost condition⟩,
      fun reenters => ⟨reenters.isLayer, reenters.within, reenters.key, reenters.alone,
        fun outermost _ given => reenters.ungated outermost given⟩⟩

variable {options : CompileOptions} {tree : TreeEntries}

/-- Options that leave the names of the layers alone ask for none of them. -/
theorem Apart.ignores (apart : options.Apart) (distinct : tree.Distinct) :
    options.Ignores (options.compileTree tree).states := by
  intro entry member
  rcases (options.mem_states_iff distinct).1 member with ⟨path, entries, key, -, -, rfl⟩
  exact ⟨apart.active_notMem _, apart.inactive_notMem _⟩

/-- A layer that can be entered again covers what is inside it on its own key. -/
theorem Reenters.covers {earlier later : TreePlace}
    (reenters : options.Reenters earlier later) :
    (options.manipulatorOf earlier).Covers (options.manipulatorOf later) := by
  have nothing : earlier.excluded = [] := by
    rw [TreePlace.excluded, if_pos reenters.isLayer, List.filter_eq_nil_iff]
    intro other member
    simp [reenters.alone other member]
  have inner : later.path ≠ .root := by
    intro outermost
    have within := reenters.within
    rw [outermost, LeaderPath.keys_root, List.prefix_nil] at within
    exact LeaderPath.child_ne_root _ _ (LeaderPath.ext within)
  refine ⟨from_eq_iff.2 reenters.key, ?_⟩
  rw [conditions_manipulatorOf, conditions_manipulatorOf, nothing, gate_of_ne_root inner]
  intro condition member
  rw [List.mem_append, List.mem_append] at member ⊢
  rcases member with (gate | excluded) | context
  · by_cases outermost : earlier.path = .root
    · rw [outermost, gate_root] at gate
      exact Or.inr (reenters.ungated outermost gate)
    · rw [gate_of_ne_root outermost] at gate
      rcases List.mem_map.1 gate with ⟨layer, around, rfl⟩
      rcases LeaderPath.mem_chain_iff.1 around with ⟨notRoot, outer⟩
      have onPath : layer ∈ later.path.chain := LeaderPath.mem_chain_iff.2
        ⟨notRoot, outer.trans ((List.prefix_append _ _).trans reenters.within)⟩
      exact Or.inl (Or.inl (List.mem_map_of_mem onPath))
  · cases excluded
  · exact Or.inr context

/-! ### Nothing else is covered -/

section

variable (distinct : tree.Distinct) (ignores : options.Ignores (options.compileTree tree).states)

include distinct ignores

/-- No condition of the options is that a layer of the tree is held. -/
theorem Ignores.around {path : LeaderPath} {entries : TreeEntries}
    (found : tree.layerAt? path.keys = some entries) {layer : LeaderPath}
    (onPath : layer ∈ path.chain) : (layer.state options.base).active ∉
      options.rootConditions ++ options.contextConditions := by
  induction path using LeaderPath.child_induction generalizing entries with
  | outermost => cases onPath
  | further path key ih =>
      rcases TreeEntries.layerAt?_concat.1 found with ⟨around, outer, bound⟩
      rw [LeaderPath.chain_child, List.mem_append, List.mem_singleton] at onPath
      rcases onPath with onPath | rfl
      · exact ih outer onPath
      · have isLayer := TreeEntries.mem_layerKeys.2 ⟨entries, mem_of_lookup bound⟩
        exact (ignores _ ((options.mem_states_iff distinct).2
          ⟨path, around, key, outer, isLayer, rfl⟩)).1

/-- No condition of the options is that a layer of the tree is not held. -/
theorem Ignores.beside {place : TreePlace} (here : tree.Has place) {key : Key}
    (excluded : key ∈ place.excluded) :
    ((place.path.child key).state options.base).inactive ∉
      options.rootConditions ++ options.contextConditions := by
  rcases here with ⟨entries, found, layers, -⟩
  have isLayer : key ∈ entries.layerKeys := layers ▸ place.excluded_subset excluded
  exact (ignores _ ((options.mem_states_iff distinct).2
    ⟨place.path, entries, key, found, isLayer, rfl⟩)).2

/-- An entry covers what is in its own layer or further in. -/
theorem Ignores.prefix_of_covers {earlier later : TreePlace} (here : tree.Has earlier)
    (covers : (options.manipulatorOf earlier).Covers (options.manipulatorOf later)) :
    earlier.path.keys <+: later.path.keys := by
  rcases here with ⟨entries, found, -⟩
  apply LeaderPath.prefix_of_chain_subset
  intro layer onPath
  have foreign := ignores.around distinct found onPath
  rw [← active_mem_conditions_iff foreign]
  exact covers.conditions ((active_mem_conditions_iff foreign).2 onPath)

/-- An entry that covers one further in asks for no layer not to be held. -/
theorem Ignores.excluded_of_covers {earlier later : TreePlace} (here : tree.Has earlier)
    (deeper : earlier.path ≠ later.path)
    (covers : (options.manipulatorOf earlier).Covers (options.manipulatorOf later)) :
    earlier.excluded = [] := by
  rw [List.eq_nil_iff_forall_not_mem]
  intro key excluded
  have foreign := ignores.beside distinct here excluded
  have asked := covers.conditions
    ((inactive_mem_conditions_iff foreign).2 ⟨key, excluded, rfl⟩)
  rcases (inactive_mem_conditions_iff foreign).1 asked with ⟨other, -, same⟩
  exact deeper (LeaderPath.child_injective same).1

/-- What an entry of the root asks for is asked for further in by the context only. -/
theorem Ignores.given_of_covers {earlier later : TreePlace} (there : tree.Has later)
    (outermost : earlier.path = .root) (inner : later.path ≠ .root)
    (covers : (options.manipulatorOf earlier).Covers (options.manipulatorOf later)) :
    options.rootConditions ⊆ options.contextConditions := by
  intro condition given
  have known := List.mem_append_left options.contextConditions given
  have asked : condition ∈ (options.manipulatorOf earlier).conditions := by
    rw [conditions_manipulatorOf, outermost, gate_root]
    exact List.mem_append_left _ (List.mem_append_left _ given)
  have again := covers.conditions asked
  rw [conditions_manipulatorOf, gate_of_ne_root inner, List.mem_append,
    List.mem_append] at again
  rcases again with (onPath | excluded) | context
  · rcases List.mem_map.1 onPath with ⟨layer, around, rfl⟩
    rcases there with ⟨entries, found, -⟩
    exact (ignores.around distinct found around known).elim
  · rcases List.mem_map.1 excluded with ⟨key, beside, rfl⟩
    exact (ignores.beside distinct there beside known).elim
  · exact context

/-- Of two entries the earlier one covers the later one only if it can be entered again. -/
theorem Ignores.reenters {earlier later : TreePlace} (here : tree.Has earlier)
    (there : tree.Has later) (different : earlier.address ≠ later.address)
    (ordered : earlier.path ≠ .root → earlier.LeavesLast later)
    (covers : (options.manipulatorOf earlier).Covers (options.manipulatorOf later)) :
    options.Reenters earlier later := by
  have key : earlier.key = later.key := from_eq_iff.1 covers.input
  have deeper : earlier.path ≠ later.path := by
    intro path
    exact different (by rw [TreePlace.address, TreePlace.address, path, key])
  rcases here.exists_layer there (ignores.prefix_of_covers distinct here covers) deeper with
    ⟨next, beside, below⟩
  have nothing := ignores.excluded_of_covers distinct here deeper covers
  have isLayer : earlier.tree.isLayer = true := by
    by_contra leaf
    rw [Bool.not_eq_true] at leaf
    by_cases outermost : earlier.path = .root
    · -- a leaf of the root excludes all layers of the root
      rw [TreePlace.excluded, leaf, outermost] at nothing
      exact List.ne_nil_of_mem beside nothing
    · exact ordered outermost leaf ⟨next, below⟩
  have alone : ∀ other ∈ earlier.layers, other = earlier.key := by
    rw [TreePlace.excluded, if_pos isLayer, List.filter_eq_nil_iff] at nothing
    intro other member
    simpa using nothing other member
  obtain rfl : next = earlier.key := alone next beside
  refine ⟨isLayer, below, key, alone, ?_⟩
  intro outermost
  exact ignores.given_of_covers distinct there outermost (outermost ▸ deeper.symm) covers

end

end CompileOptions

/--
In the order of all rules a manipulator covers a later one exactly if it is the
activation of a layer that nothing excludes and the later one is inside that layer
on the layer's own key.
-/
theorem LayerSpec.covers_iff_reenters {spec : LayerSpec} {options : CompileOptions}
    {compilation : Compilation} (label : String)
    (compiled : spec.compile options = .ok compilation)
    (ignores : options.Ignores compilation.states) :
    ∃ tree, spec.expand = .ok tree ∧
      (compilation.rules label).flatMap Rule.manipulators =
        tree.places.map options.manipulatorOf ∧
      tree.places.Pairwise fun earlier later =>
        (options.manipulatorOf earlier).Covers (options.manipulatorOf later) ↔
          options.Reenters earlier later := by
  rcases compile_eq_ok_iff.1 compiled with ⟨-, tree, expanded, rfl⟩
  have distinct : tree.Distinct := distinct_of_expand expanded
  refine ⟨tree, expanded, options.manipulators_compileTree label tree, ?_⟩
  have different : tree.places.Pairwise fun earlier later =>
      earlier.address ≠ later.address :=
    List.pairwise_map.1 (TreeEntries.nodup_addresses distinct)
  apply (different.and (TreeEntries.leavesLast_places distinct)).imp_of_mem
  rintro earlier later first second ⟨apart, ordered⟩
  constructor
  · exact ignores.reenters distinct ((TreeEntries.mem_places_iff distinct).1 first)
      ((TreeEntries.mem_places_iff distinct).1 second) apart ordered
  · exact CompileOptions.Reenters.covers

namespace Sample

/-- A layer with an entry on its own key. -/
def selfKeyed : LayerSpec where
  root := [("a", .layer [("a", .action launch)])]

def selfKeyedTree : TreeEntries := [(outer, .layer [(outer, .leaf leaf)])]

/-- A context in which both the outer layer and the inner one are held. -/
def aimed : CompileOptions where
  contextConditions :=
    [.variableIf "hyper_sublayer_a" 1, .variableIf "hyper_sublayer_a__b" 1]

theorem expand_selfKeyed : selfKeyed.expand = .ok selfKeyedTree :=
  expand_single parse_outer

theorem compile_selfKeyed :
    selfKeyed.compile {} = .ok (CompileOptions.compileTree {} selfKeyedTree) :=
  LayerSpec.compile_eq_ok_iff.2 ⟨by decide +kernel, selfKeyedTree, expand_selfKeyed, rfl⟩

theorem compile_aimed : spec.compile aimed = .ok (aimed.compileTree tree) :=
  LayerSpec.compile_eq_ok_iff.2 ⟨by decide +kernel, tree, expand_spec, rfl⟩

/-- No entry of the sample is on the key of a layer around it, so nothing is covered. -/
theorem spec_covers_nothing :
    spec.compile {} = .ok (CompileOptions.compileTree {} tree) ∧
      CompileOptions.Ignores {} (CompileOptions.compileTree {} tree).states ∧
      (((CompileOptions.compileTree {} tree).rules "Hyper").flatMap
        Rule.manipulators).Pairwise fun earlier later => ¬ earlier.Covers later := by
  have ignores :
      CompileOptions.Ignores {} (CompileOptions.compileTree {} tree).states := by
    have apart : CompileOptions.Apart {} := by decide
    exact apart.ignores (LayerSpec.distinct_of_expand expand_spec)
  have never : tree.places.Pairwise fun earlier later =>
      ¬ CompileOptions.Reenters {} earlier later := by
    decide +kernel
  rcases LayerSpec.covers_iff_reenters "Hyper" compile_spec ignores with
    ⟨found, expanded, places, pairs⟩
  obtain rfl : tree = found := Except.ok.inj (expand_spec.symm.trans expanded)
  refine ⟨compile_spec, ignores, ?_⟩
  rw [places, List.pairwise_map]
  apply (pairs.and never).imp
  rintro earlier later ⟨only, free⟩ covers
  exact free (only.1 covers)

/--
A layer covers the entry on its own key.  In a context that is about layers, the
leaf of one layer can also cover that of another.
-/
theorem compiled_rules_cover :
    (∃ compilation, selfKeyed.compile {} = .ok compilation ∧
      ¬ ((compilation.rules "Hyper").flatMap Rule.manipulators).Pairwise
        fun earlier later => ¬ earlier.Covers later) ∧
    ∃ compilation, spec.compile aimed = .ok compilation ∧
      ¬ ((compilation.rules "Hyper").flatMap Rule.manipulators).Pairwise
        fun earlier later => ¬ earlier.Covers later := by
  constructor
  · refine ⟨_, compile_selfKeyed, ?_⟩
    rw [Compilation.rules, CompileOptions.manipulators_compileTree]
    decide +kernel
  · refine ⟨_, compile_aimed, ?_⟩
    rw [Compilation.rules, CompileOptions.manipulators_compileTree]
    decide +kernel

end Sample

end KeyLayers
