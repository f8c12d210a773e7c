import KeyLayers.Hyper
import KeyLayers.Proofs.Layer.Path
import KeyLayers.Proofs.Outcome

/-!
# Places in an expanded tree

A place is an entry of an expanded tree together with where it stands: the path
of its layer and the layers in it.  `TreeEntries.layerAt?` walks down to the
layer that a path leads to, and `TreeEntries.places` lists all places in the
order in which their manipulators are compiled.  Every manipulator is that of
its place (`manipulators_compileTree`), so what holds of all manipulators can be
proved of the places of the tree, which know nothing of conditions and events.
-/

namespace KeyLayers

namespace TreeEntries

/-! ## Looking up entries -/

/-- Whether no key is bound twice. -/
def Unambiguous (entries : TreeEntries) : Prop :=
  (entries.map Prod.fst).Nodup

theorem lookup_eq_some_iff {entries : TreeEntries} (unique : entries.Unambiguous)
    {key : Key} {tree : Tree} :
    entries.lookup key = some tree ↔ (key, tree) ∈ entries :=
  KeyLayers.lookup_eq_some_iff unique

theorem mem_layerKeys {entries : TreeEntries} {key : Key} :
    key ∈ entries.layerKeys ↔ ∃ inner, (key, .layer inner) ∈ entries := by
  simp only [layerKeys, List.mem_map, List.mem_filter]
  constructor
  · rintro ⟨⟨key, tree⟩, ⟨member, isLayer⟩, rfl⟩
    cases tree with
    | leaf leaf => simp [Tree.isLayer] at isLayer
    | layer inner => exact ⟨inner, member⟩
  · rintro ⟨inner, member⟩
    exact ⟨(key, .layer inner), ⟨member, rfl⟩, rfl⟩

theorem mem_layerKeys_cons {key other : Key} {tree : Tree} {rest : TreeEntries}
    (member : other ∈ rest.layerKeys) : other ∈ layerKeys ((key, tree) :: rest) := by
  rcases mem_layerKeys.1 member with ⟨inner, within⟩
  exact mem_layerKeys.2 ⟨inner, .tail _ within⟩

/-- The key of an entry is not that of another layer beside it. -/
theorem Unambiguous.ne_of_mem {key other : Key} {tree : Tree} {rest : TreeEntries}
    (unique : Unambiguous ((key, tree) :: rest)) (member : other ∈ rest.layerKeys) :
    other ≠ key := by
  rintro rfl
  rcases mem_layerKeys.1 member with ⟨inner, within⟩
  exact (List.nodup_cons.1 unique).1 (List.mem_map.2 ⟨_, within, rfl⟩)

theorem Unambiguous.tail {entry : Key × Tree} {rest : TreeEntries}
    (unique : Unambiguous (entry :: rest)) : rest.Unambiguous :=
  (List.nodup_cons.1 unique).2

/-- The entries of the layer that some keys lead to. -/
def layerAt? (entries : TreeEntries) : List Key → Option TreeEntries
  | [] => some entries
  | key :: rest =>
      match entries.lookup key with
      | some (.layer inner) => layerAt? inner rest
      | _ => none

@[simp]
theorem layerAt?_nil (entries : TreeEntries) : entries.layerAt? [] = some entries := rfl

theorem layerAt?_cons {entries inner : TreeEntries} {key : Key}
    (found : entries.lookup key = some (.layer inner)) (rest : List Key) :
    entries.layerAt? (key :: rest) = inner.layerAt? rest := by
  simp [layerAt?, found]

/-- A key leads on where it is bound to a layer. -/
theorem layerAt?_cons_iff {entries last : TreeEntries} {key : Key} {rest : List Key} :
    entries.layerAt? (key :: rest) = some last ↔
      ∃ inner : TreeEntries, entries.lookup key = some (.layer inner) ∧
        inner.layerAt? rest = some last := by
  rw [layerAt?]
  split
  · next found => simp [found]
  · next absent =>
      constructor
      · intro impossible
        cases impossible
      · rintro ⟨inner, found, -⟩
        exact (absent inner found).elim

theorem layerAt?_append (entries : TreeEntries) (keys rest : List Key) :
    entries.layerAt? (keys ++ rest) =
      (entries.layerAt? keys).bind (·.layerAt? rest) := by
  induction keys generalizing entries with
  | nil => rfl
  | cons key keys ih =>
      rw [List.cons_append, layerAt?, layerAt?]
      split
      · exact ih _
      · rfl

/-- One key further is a layer where that key is bound to one. -/
theorem layerAt?_concat {tree inner : TreeEntries} {keys : List Key} {key : Key} :
    tree.layerAt? (keys ++ [key]) = some inner ↔
      ∃ entries, tree.layerAt? keys = some entries ∧
        entries.lookup key = some (.layer inner) := by
  rw [layerAt?_append, Option.bind_eq_some_iff]
  refine exists_congr fun entries => and_congr_right fun _ => ?_
  rw [layerAt?_cons_iff]
  simp

/-- Whether no key is bound twice in any layer of a tree. -/
def Distinct (tree : TreeEntries) : Prop :=
  ∀ keys entries, tree.layerAt? keys = some entries → entries.Unambiguous

theorem Distinct.unambiguous {tree : TreeEntries} (distinct : tree.Distinct) :
    tree.Unambiguous :=
  distinct [] tree rfl

theorem Distinct.inner {tree inner : TreeEntries} {key : Key} (distinct : tree.Distinct)
    (member : (key, .layer inner) ∈ tree) : inner.Distinct := by
  intro keys entries found
  have bound := (lookup_eq_some_iff distinct.unambiguous).2 member
  exact distinct (key :: keys) entries ((layerAt?_cons bound keys).trans found)

theorem sizeOf_lt_of_mem {entries inner : TreeEntries} {key : Key}
    (member : (key, .layer inner) ∈ entries) : sizeOf inner < sizeOf entries := by
  have smaller := List.sizeOf_lt_of_mem member
  simp only [Prod.mk.sizeOf_spec, Tree.layer.sizeOf_spec] at smaller
  omega

/-- What holds of every layer follows if it holds of a layer when it holds inside. -/
theorem layer_induction {motive : TreeEntries → Prop}
    (step : ∀ entries : TreeEntries,
      (∀ key inner, (key, Tree.layer inner) ∈ entries → motive inner) → motive entries)
    (entries : TreeEntries) : motive entries :=
  step entries fun key inner member =>
    have := sizeOf_lt_of_mem member
    layer_induction step inner
termination_by sizeOf entries

end TreeEntries

/-! ## Places -/

/-- An entry of an expanded tree and where it stands. -/
structure TreePlace where
  /-- The layer that the entry is in. -/
  path : LeaderPath
  /-- The keys of all layers in that layer. -/
  layers : List Key
  key : Key
  tree : Tree

mutual

/-- An entry and everything inside it, in the order of the manipulators. -/
def Tree.places (path : LeaderPath) (layers : List Key) (key : Key) :
    Tree → List TreePlace
  | .leaf leaf => [⟨path, layers, key, .leaf leaf⟩]
  | .layer entries =>
      ⟨path, layers, key, .layer entries⟩ ::
        (TreeEntries.nestedPlaces (path.child key) (TreeEntries.layerKeys entries) entries ++
          (entries.filter (!·.2.isLayer)).map fun entry =>
            ⟨path.child key, TreeEntries.layerKeys entries, entry.1, entry.2⟩)

/-- The layers among some entries and everything inside them. -/
def TreeEntries.nestedPlaces (path : LeaderPath) (layers : List Key) :
    List (Key × Tree) → List TreePlace
  | [] => []
  | (_, .leaf _) :: rest => TreeEntries.nestedPlaces path layers rest
  | (key, .layer entries) :: rest =>
      Tree.places path layers key (.layer entries) ++
        TreeEntries.nestedPlaces path layers rest

end

namespace TreeEntries

/-- Everything inside a layer: first the layers, then the leaves. -/
def inside (path : LeaderPath) (entries : TreeEntries) : List TreePlace :=
  nestedPlaces path entries.layerKeys entries ++
    (entries.filter (!·.2.isLayer)).map fun entry =>
      ⟨path, entries.layerKeys, entry.1, entry.2⟩

/-- Every place of a tree, in the order of the manipulators. -/
def places (tree : TreeEntries) : List TreePlace :=
  tree.flatMap fun entry => entry.2.places .root tree.layerKeys entry.1

theorem places_layer (path : LeaderPath) (layers : List Key) (key : Key)
    (entries : TreeEntries) :
    Tree.places path layers key (.layer entries) =
      ⟨path, layers, key, .layer entries⟩ :: inside (path.child key) entries := by
  rw [Tree.places, inside]

theorem nestedPlaces_eq_flatMap (path : LeaderPath) (layers : List Key)
    (entries : TreeEntries) :
    nestedPlaces path layers entries =
      (entries.filter (·.2.isLayer)).flatMap fun entry =>
        entry.2.places path layers entry.1 := by
  induction entries with
  | nil => rfl
  | cons entry rest ih =>
      rcases entry with ⟨key, leaf | inner⟩
      · simpa [nestedPlaces, Tree.isLayer] using ih
      · simpa [nestedPlaces, Tree.isLayer] using ih

/-- Inside a layer are its entries and what is inside the layers among them. -/
theorem mem_inside_iff {path : LeaderPath} {entries : TreeEntries} {place : TreePlace} :
    place ∈ inside path entries ↔
      (∃ key tree, (key, tree) ∈ entries ∧
        place = ⟨path, entries.layerKeys, key, tree⟩) ∨
      ∃ key inner, (key, .layer inner) ∈ entries ∧
        place ∈ inside (path.child key) inner := by
  rw [inside, nestedPlaces_eq_flatMap, List.mem_append, List.mem_flatMap, List.mem_map]
  simp only [List.mem_filter]
  constructor
  · rintro (⟨⟨key, tree⟩, ⟨member, isLayer⟩, within⟩ | ⟨⟨key, tree⟩, ⟨member, -⟩, rfl⟩)
    · cases tree with
      | leaf leaf => simp [Tree.isLayer] at isLayer
      | layer inner =>
          rw [places_layer, List.mem_cons] at within
          rcases within with rfl | within
          · exact Or.inl ⟨key, .layer inner, member, rfl⟩
          · exact Or.inr ⟨key, inner, member, within⟩
    · exact Or.inl ⟨key, tree, member, rfl⟩
  · rintro (⟨key, tree, member, rfl⟩ | ⟨key, inner, member, within⟩)
    · cases tree with
      | leaf leaf => exact Or.inr ⟨(key, .leaf leaf), ⟨member, rfl⟩, rfl⟩
      | layer inner =>
          refine Or.inl ⟨(key, .layer inner), ⟨member, rfl⟩, ?_⟩
          rw [places_layer]
          exact List.mem_cons_self
    · refine Or.inl ⟨(key, .layer inner), ⟨member, rfl⟩, ?_⟩
      rw [places_layer]
      exact List.mem_cons_of_mem _ within

theorem path_of_mem_inside {path : LeaderPath} {tree : TreeEntries} {place : TreePlace}
    (within : place ∈ inside path tree) : path.keys <+: place.path.keys := by
  induction tree using layer_induction generalizing path with
  | step tree ih =>
      rcases mem_inside_iff.1 within with
        ⟨key, bound, member, rfl⟩ | ⟨key, inner, member, deeper⟩
      · exact List.prefix_rfl
      · exact (List.prefix_append path.keys [key]).trans (ih key inner member deeper)

theorem mem_places_iff_mem_inside {tree : TreeEntries} {place : TreePlace} :
    place ∈ tree.places ↔ place ∈ inside .root tree := by
  rw [mem_inside_iff, places, List.mem_flatMap]
  constructor
  · rintro ⟨⟨key, leaf | inner⟩, member, within⟩
    · rw [Tree.places, List.mem_singleton] at within
      exact Or.inl ⟨key, .leaf leaf, member, within⟩
    · rw [places_layer, List.mem_cons] at within
      rcases within with here | within
      · exact Or.inl ⟨key, .layer inner, member, here⟩
      · exact Or.inr ⟨key, inner, member, within⟩
  · rintro (⟨key, leaf | inner, member, rfl⟩ | ⟨key, inner, member, within⟩)
    · exact ⟨(key, .leaf leaf), member, by simp [Tree.places]⟩
    · exact ⟨(key, .layer inner), member, by simp [places_layer]⟩
    · refine ⟨(key, .layer inner), member, ?_⟩
      rw [places_layer]
      exact List.mem_cons_of_mem _ within

/-- Whether a place is one of a tree. -/
def Has (tree : TreeEntries) (place : TreePlace) : Prop :=
  ∃ entries, tree.layerAt? place.path.keys = some entries ∧
    place.layers = entries.layerKeys ∧ (place.key, place.tree) ∈ entries

theorem mem_inside_of_layerAt? (path : LeaderPath) {tree entries : TreeEntries}
    {keys : List Key} {key : Key} {bound : Tree}
    (found : tree.layerAt? keys = some entries) (member : (key, bound) ∈ entries) :
    ⟨⟨path.keys ++ keys⟩, entries.layerKeys, key, bound⟩ ∈ inside path tree := by
  induction keys generalizing path tree with
  | nil =>
      obtain rfl : tree = entries := by simpa using found
      exact mem_inside_iff.2 (Or.inl ⟨key, bound, member, by simp⟩)
  | cons first rest ih =>
      rcases layerAt?_cons_iff.1 found with ⟨inner, hit, found⟩
      refine mem_inside_iff.2 (Or.inr ⟨first, inner, mem_of_lookup hit, ?_⟩)
      have below := ih (path.child first) found
      rwa [LeaderPath.keys_child, List.append_assoc, List.singleton_append] at below

theorem layerAt?_of_mem_inside {path : LeaderPath} {tree : TreeEntries} {place : TreePlace}
    (distinct : tree.Distinct) (within : place ∈ inside path tree) :
    ∃ keys entries, place.path.keys = path.keys ++ keys ∧
      tree.layerAt? keys = some entries ∧ place.layers = entries.layerKeys ∧
        (place.key, place.tree) ∈ entries := by
  induction tree using layer_induction generalizing path with
  | step tree ih =>
      rcases mem_inside_iff.1 within with
        ⟨key, bound, member, rfl⟩ | ⟨key, inner, member, within⟩
      · exact ⟨[], tree, by simp, rfl, rfl, member⟩
      · rcases ih key inner member (distinct.inner member) within with
          ⟨keys, entries, path, found, layers, here⟩
        refine ⟨key :: keys, entries, by simpa using path, ?_, layers, here⟩
        have bound := (lookup_eq_some_iff distinct.unambiguous).2 member
        exact (layerAt?_cons bound keys).trans found

/-- The list of places holds each place of the tree and no other. -/
theorem mem_places_iff {tree : TreeEntries} (distinct : tree.Distinct) {place : TreePlace} :
    place ∈ tree.places ↔ tree.Has place := by
  rw [mem_places_iff_mem_inside]
  constructor
  · intro within
    rcases layerAt?_of_mem_inside distinct within with
      ⟨keys, entries, path, found, layers, here⟩
    have keys : place.path.keys = keys := by simpa using path
    exact ⟨entries, keys ▸ found, layers, here⟩
  · rintro ⟨entries, found, layers, here⟩
    have within := mem_inside_of_layerAt? .root found here
    rw [LeaderPath.keys_root, List.nil_append, ← layers] at within
    exact within

end TreeEntries

/-! ## The manipulator of a place -/

namespace CompileOptions

variable (options : CompileOptions)

/-- The manipulator that an entry is compiled to. -/
def manipulatorOf (place : TreePlace) : Manipulator :=
  match place.tree with
  | .leaf leaf => options.dispatch place.path place.layers place.key leaf
  | .layer _ => options.activation place.path place.layers place.key

@[simp]
theorem from_manipulatorOf (place : TreePlace) :
    (options.manipulatorOf place).from_ = .anyModifiers place.key := by
  rcases place with ⟨path, layers, key, leaf | inner⟩
  · rfl
  · rfl

theorem dispatches_eq_map (path : LeaderPath) (layers : List Key) (entries : TreeEntries) :
    options.dispatches path layers entries =
      ((entries.filter (!·.2.isLayer)).map fun entry =>
        ⟨path, layers, entry.1, entry.2⟩).map options.manipulatorOf := by
  induction entries with
  | nil => rfl
  | cons entry rest ih =>
      rcases entry with ⟨key, leaf | inner⟩
      · simpa [dispatches, Tree.isLayer, manipulatorOf] using ih
      · simpa [dispatches, Tree.isLayer] using ih

mutual

theorem manipulators_eq_map (path : LeaderPath) (layers : List Key) (key : Key) :
    ∀ tree : Tree, options.manipulators path layers key tree =
      (tree.places path layers key).map options.manipulatorOf
  | .leaf leaf => by
      simp [manipulators, Tree.places, manipulatorOf]
  | .layer entries => by
      rw [manipulators, TreeEntries.places_layer, TreeEntries.inside, List.map_cons,
        List.map_append, ← dispatches_eq_map, ← nested_eq_map]
      rfl

theorem nested_eq_map (path : LeaderPath) (layers : List Key) :
    ∀ entries : List (Key × Tree), options.nested path layers entries =
      (TreeEntries.nestedPlaces path layers entries).map options.manipulatorOf
  | [] => by simp [nested, TreeEntries.nestedPlaces]
  | (_, .leaf _) :: rest => by
      rw [nested, TreeEntries.nestedPlaces]
      exact nested_eq_map path layers rest
  | (key, .layer entries) :: rest => by
      rw [nested, TreeEntries.nestedPlaces, List.map_append,
        manipulators_eq_map path layers key (.layer entries), nested_eq_map path layers rest]

end

/-- The manipulators of all rules, one after the other, are those of the places. -/
theorem manipulators_compileTree (label : String) (tree : TreeEntries) :
    ((options.compileTree tree).blocks.map (LayerBlock.rule label)).flatMap
        Rule.manipulators = tree.places.map options.manipulatorOf := by
  simp only [compileTree, List.map_map, List.flatMap_map, Function.comp_def,
    LayerBlock.rule, block, TreeEntries.places, List.map_flatMap, manipulators_eq_map]

/-! ## The variables of the layers -/

theorem deeperVariables_eq_flatMap (path : LeaderPath) (entries : TreeEntries) :
    options.deeperVariables path entries =
      entries.flatMap fun entry => options.innerVariables (path.child entry.1) entry.2 := by
  induction entries with
  | nil => simp [deeperVariables]
  | cons entry rest ih =>
      rcases entry with ⟨key, tree⟩
      rw [deeperVariables, ih, List.flatMap_cons]

theorem mem_innerVariables_iff {path : LeaderPath} {tree : TreeEntries}
    {entry : LeaderPath × StateVariable} :
    entry ∈ options.innerVariables path (.layer tree) ↔
      (∃ key ∈ tree.layerKeys,
        entry = (path.child key, (path.child key).state options.base)) ∨
      ∃ key inner, (key, .layer inner) ∈ tree ∧
        entry ∈ options.innerVariables (path.child key) (.layer inner) := by
  rw [innerVariables, List.mem_append, deeperVariables_eq_flatMap, List.mem_flatMap]
  refine or_congr ?_ ?_
  · simp [variablesOf, eq_comm]
  · constructor
    · rintro ⟨⟨key, leaf | inner⟩, member, within⟩
      · simp [innerVariables] at within
      · exact ⟨key, inner, member, within⟩
    · rintro ⟨key, inner, member, within⟩
      exact ⟨(key, .layer inner), member, within⟩

theorem mem_innerVariables_iff_place {path : LeaderPath} {tree : TreeEntries}
    {entry : LeaderPath × StateVariable} :
    entry ∈ options.innerVariables path (.layer tree) ↔
      ∃ place ∈ TreeEntries.inside path tree, place.tree.isLayer = true ∧
        entry = (place.path.child place.key,
          (place.path.child place.key).state options.base) := by
  induction tree using TreeEntries.layer_induction generalizing path with
  | step tree ih =>
      rw [mem_innerVariables_iff]
      constructor
      · rintro (⟨key, layer, rfl⟩ | ⟨key, inner, member, within⟩)
        · rcases TreeEntries.mem_layerKeys.1 layer with ⟨inner, member⟩
          exact ⟨⟨path, tree.layerKeys, key, .layer inner⟩,
            TreeEntries.mem_inside_iff.2 (Or.inl ⟨key, .layer inner, member, rfl⟩), rfl, rfl⟩
        · rcases (ih key inner member).1 within with ⟨place, deeper, isLayer, same⟩
          exact ⟨place, TreeEntries.mem_inside_iff.2 (Or.inr ⟨key, inner, member, deeper⟩),
            isLayer, same⟩
      · rintro ⟨place, within, isLayer, same⟩
        rcases TreeEntries.mem_inside_iff.1 within with
          ⟨key, bound, member, rfl⟩ | ⟨key, inner, member, deeper⟩
        · cases bound with
          | leaf leaf => simp [Tree.isLayer] at isLayer
          | layer inner =>
              exact Or.inl ⟨key, TreeEntries.mem_layerKeys.2 ⟨inner, member⟩, same⟩
        · exact Or.inr ⟨key, inner, member,
            (ih key inner member).2 ⟨place, deeper, isLayer, same⟩⟩

/-- The variables of a compilation are those of the layers of its tree. -/
theorem mem_states_iff {tree : TreeEntries} (distinct : tree.Distinct)
    {entry : LeaderPath × StateVariable} :
    entry ∈ (options.compileTree tree).states ↔
      ∃ (parent : LeaderPath) (entries : TreeEntries) (key : Key),
        tree.layerAt? parent.keys = some entries ∧ key ∈ entries.layerKeys ∧
          entry = (parent.child key, (parent.child key).state options.base) := by
  rw [compileTree, mem_innerVariables_iff_place]
  simp only [← TreeEntries.mem_places_iff_mem_inside, TreeEntries.mem_places_iff distinct]
  constructor
  · rintro ⟨⟨path, layers, key, leaf | inner⟩, ⟨entries, found, -, member⟩, isLayer, same⟩
    · simp [Tree.isLayer] at isLayer
    · exact ⟨path, entries, key, found, TreeEntries.mem_layerKeys.2 ⟨inner, member⟩, same⟩
  · rintro ⟨parent, entries, key, found, layer, same⟩
    rcases TreeEntries.mem_layerKeys.1 layer with ⟨inner, member⟩
    exact ⟨⟨parent, entries.layerKeys, key, .layer inner⟩, ⟨entries, found, rfl, member⟩,
      rfl, same⟩

end CompileOptions

end KeyLayers
