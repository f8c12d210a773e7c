import KeyLayers.Proofs.Layer.Emission
import KeyLayers.Proofs.Layer.Precedence
import KeyLayers.Proofs.Layer.Recovery
import Mathlib.Data.List.Nodup
import Mathlib.Data.List.Pairwise

/-!
# The list of variables and the rules

A compilation lists its variables in the order in which they are allocated: first
those of the layers directly under a path, then those inside each of these layers.
A layer therefore stands before every layer nested in it
(`TreeEntries.outermostFirst_layersInside`), and no layer stands there twice.

The rules set to 1 the variables of this list and no others, each in one place
(`TreeEntries.entered_perm`), and ask for no other variable of a layer
(`CompileOptions.exists_of_owns`).
-/

namespace KeyLayers

/-! ## Order -/

/-- Whether no layer of a list stands behind itself or behind a layer nested in it. -/
def OutermostFirst (layers : List LeaderPath) : Prop :=
  layers.Pairwise fun first later => ¬ later.keys <+: first.keys

theorem OutermostFirst.nodup {layers : List LeaderPath} (ordered : OutermostFirst layers) :
    layers.Nodup := by
  apply ordered.imp
  rintro first later apart rfl
  exact apart List.prefix_rfl

namespace TreeEntries

theorem layersBelow_eq_flatMap (path : LeaderPath) (entries : TreeEntries) :
    layersBelow path entries =
      entries.flatMap fun entry => entry.2.layersInside (path.child entry.1) := by
  induction entries with
  | nil => rfl
  | cons entry rest ih => rw [layersBelow, ih, List.flatMap_cons]

/-- What is inside a layer is nested in it by at least one key. -/
theorem length_of_mem_layersInside {path layer : LeaderPath} {tree : Tree}
    (member : layer ∈ tree.layersInside path) :
    path.keys <+: layer.keys ∧ path.keys.length < layer.keys.length := by
  cases tree with
  | leaf leaf => cases member
  | layer entries =>
      refine ⟨Tree.prefix_of_mem_layersInside member, ?_⟩
      rw [Tree.layersInside, List.mem_append, List.mem_map] at member
      have nested : ∃ key, (path.child key).keys <+: layer.keys := by
        rcases member with ⟨key, -, rfl⟩ | deeper
        · exact ⟨key, List.prefix_rfl⟩
        · rcases mem_layersBelow_iff.1 deeper with ⟨key, leaf | inner, -, within⟩
          · cases within
          · exact ⟨key, Tree.prefix_of_mem_layersInside within⟩
      rcases nested with ⟨key, isPrefix⟩
      have longer := isPrefix.length_le
      rw [LeaderPath.keys_child, List.length_append, List.length_singleton] at longer
      omega

theorem Unambiguous.nodup_layerKeys {entries : TreeEntries} (unique : entries.Unambiguous) :
    entries.layerKeys.Nodup :=
  unique.sublist (List.filter_sublist.map _)

theorem outermostFirst_layersInside {entries : TreeEntries} (distinct : entries.Distinct)
    (path : LeaderPath) : OutermostFirst ((Tree.layer entries).layersInside path) := by
  induction entries using layer_induction generalizing path with
  | step entries ih =>
      rw [OutermostFirst, Tree.layersInside, layersBelow_eq_flatMap, List.pairwise_append,
        List.pairwise_map, List.pairwise_flatMap]
      refine ⟨?beside, ⟨?within, ?across⟩, ?below⟩
      case beside =>
        apply distinct.unambiguous.nodup_layerKeys.imp
        intro first second apart around
        exact apart (LeaderPath.key_of_child_prefix List.prefix_rfl around)
      case within =>
        rintro ⟨key, leaf | inner⟩ member
        · exact List.Pairwise.nil
        · exact ih key inner member (distinct.inner member) (path.child key)
      case across =>
        have different : entries.Pairwise fun left right => left.1 ≠ right.1 :=
          List.pairwise_map.1 distinct.unambiguous
        apply different.imp
        rintro ⟨first, left⟩ ⟨second, right⟩ apart layer inLeft later inRight around
        have leftPrefix := (length_of_mem_layersInside inLeft).1
        have rightPrefix := (length_of_mem_layersInside inRight).1.trans around
        exact apart (LeaderPath.key_of_child_prefix leftPrefix rightPrefix)
      case below =>
        rintro first beside later deeper around
        rcases List.mem_map.1 beside with ⟨key, -, rfl⟩
        rcases List.mem_flatMap.1 deeper with ⟨⟨other, inner⟩, -, within⟩
        have longer := (length_of_mem_layersInside within).2
        have shorter := around.length_le
        simp only [LeaderPath.keys_child, List.length_append, List.length_singleton]
          at longer shorter
        omega

/-! ## What the rules set -/

/-- The layers of a tree are those that have a variable, whatever the variables are called. -/
theorem layersInside_eq_map (options : CompileOptions) (path : LeaderPath) (tree : Tree) :
    tree.layersInside path = (options.innerVariables path tree).map Prod.fst := by
  rw [CompileOptions.innerVariables_eq_map, List.map_map]
  exact List.map_id _ |>.symm

theorem mem_layersInside_iff {tree : TreeEntries} {layer : LeaderPath} :
    layer ∈ (Tree.layer tree).layersInside .root ↔
      layer ∈ tree.places.flatMap TreePlace.entered := by
  rw [layersInside_eq_map {}, List.mem_map, List.mem_flatMap]
  simp only [CompileOptions.mem_innerVariables_iff_place, ← mem_places_iff_mem_inside]
  constructor
  · rintro ⟨_, ⟨place, member, isLayer, rfl⟩, rfl⟩
    refine ⟨place, member, ?_⟩
    rw [TreePlace.entered, if_pos isLayer]
    exact List.mem_singleton.2 rfl
  · rintro ⟨place, member, enters⟩
    rw [TreePlace.entered] at enters
    split at enters
    next isLayer => exact ⟨_, ⟨place, member, isLayer, rfl⟩, (List.mem_singleton.1 enters).symm⟩
    next => cases enters

theorem entered_sublist (places : List TreePlace) :
    (places.flatMap TreePlace.entered).Sublist (places.map TreePlace.address) := by
  induction places with
  | nil => exact List.Sublist.refl _
  | cons place rest ih =>
      rw [List.flatMap_cons, List.map_cons, ← List.singleton_append]
      refine List.Sublist.append ?_ ih
      rw [TreePlace.entered]
      split
      · exact List.Sublist.refl _
      · exact List.nil_sublist _

theorem nodup_entered {tree : TreeEntries} (distinct : tree.Distinct) :
    (tree.places.flatMap TreePlace.entered).Nodup :=
  List.Nodup.sublist (entered_sublist tree.places) (nodup_addresses distinct)

/-- The layers in the order of the list are those in the order of the manipulators. -/
theorem entered_perm {tree : TreeEntries} (distinct : tree.Distinct) :
    ((Tree.layer tree).layersInside .root).Perm (tree.places.flatMap TreePlace.entered) :=
  (List.perm_ext_iff_of_nodup (outermostFirst_layersInside distinct .root).nodup
    (nodup_entered distinct)).2 fun _ => mem_layersInside_iff

/-! ## What the rules ask for -/

/-- The layers on the path of a place are entered by some place. -/
theorem Introduced.mem_of_mem_chain {known : List LeaderPath} {places : List TreePlace}
    (introduced : Introduced known places) {place : TreePlace} (member : place ∈ places)
    {layer : LeaderPath} (around : layer ∈ place.path.chain) :
    layer ∈ known ∨ layer ∈ places.flatMap TreePlace.entered := by
  induction introduced with
  | nil known => cases member
  | @cons known first rest outer later ih =>
      rcases List.mem_cons.1 member with rfl | behind
      · exact Or.inl (outer layer around)
      · rw [List.flatMap_cons, List.mem_append]
        rcases ih behind with before | behind
        · rcases List.mem_append.1 before with new | old
          · exact Or.inr (Or.inl new)
          · exact Or.inl old
        · exact Or.inr (Or.inr behind)

/-- The layers beside a place are entered by some place. -/
theorem mem_entered_of_beside {tree : TreeEntries} (distinct : tree.Distinct)
    {place : TreePlace} (member : place ∈ tree.places) {key : Key}
    (beside : key ∈ place.layers) :
    place.path.child key ∈ tree.places.flatMap TreePlace.entered := by
  rcases (mem_places_iff distinct).1 member with ⟨entries, around, layers, -⟩
  rw [layers] at beside
  rcases mem_layerKeys.1 beside with ⟨inner, bound⟩
  refine List.mem_flatMap.2
    ⟨⟨place.path, entries.layerKeys, key, .layer inner⟩, ?_, List.mem_singleton.2 rfl⟩
  exact (mem_places_iff distinct).2 ⟨entries, around, rfl, bound⟩

end TreeEntries

namespace CompileOptions

variable {options : CompileOptions}

/-- A condition about a variable of the layers is about that of a layer of the tree. -/
theorem exists_of_owns {tree : TreeEntries} (distinct : tree.Distinct) (apart : options.Apart)
    {place : TreePlace} (member : place ∈ tree.places) {condition : Condition}
    (asked : condition ∈ (options.manipulatorOf place).conditions)
    (owned : options.owns condition.variableName = true) :
    ∃ layer ∈ tree.places.flatMap TreePlace.entered,
      condition.variableName = (layer.state options.base).name := by
  have foreign : condition ∉ options.rootConditions ++ options.contextConditions := by
    intro given
    rw [apart condition given] at owned
    cases owned
  rw [List.mem_append, not_or] at foreign
  rw [conditions_manipulatorOf, List.mem_append, List.mem_append, or_iff_left foreign.2] at asked
  rcases asked with gated | excluded
  · rw [gate] at gated
    split at gated
    · exact (foreign.1 gated).elim
    · rcases List.mem_map.1 gated with ⟨layer, around, rfl⟩
      rcases (TreeEntries.introduced_places tree).mem_of_mem_chain member around with
        impossible | entered
      · cases impossible
      · exact ⟨layer, entered, rfl⟩
  · rcases List.mem_map.1 excluded with ⟨key, beside, rfl⟩
    exact ⟨_, TreeEntries.mem_entered_of_beside distinct member
      (place.excluded_subset beside), rfl⟩

end CompileOptions

end KeyLayers
