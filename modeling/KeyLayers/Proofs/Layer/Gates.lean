import KeyLayers.Proofs.Layer.Address

/-!
# What the conditions of an entry say about its place

Below the root a manipulator asks for every layer on its path to be held, and no
manipulator asks for any other layer to be held.  It asks for layers not to be held
only where they stand beside its entry.  The path of an entry can therefore be read
off its conditions, in whatever order they stand
(`CompileOptions.active_mem_conditions_iff`), unless the conditions of the options
are about layers, too.
-/

namespace KeyLayers

theorem StateVariable.active_injective : Function.Injective StateVariable.active := by
  rintro ⟨left⟩ ⟨right⟩ same
  cases same
  rfl

theorem StateVariable.inactive_injective : Function.Injective StateVariable.inactive := by
  rintro ⟨left⟩ ⟨right⟩ same
  cases same
  rfl

theorem StateVariable.active_ne_inactive (left right : StateVariable) :
    left.active ≠ right.inactive := by
  intro same
  simp [active, inactive] at same

/-- The keys of the layers beside an entry that may not be held while it fires. -/
def TreePlace.excluded (place : TreePlace) : List Key :=
  if place.tree.isLayer then place.layers.filter (· != place.key)
  else if place.path.keys.isEmpty then place.layers else []

namespace CompileOptions

/-- Whether no condition of the options is about a variable of the layers. -/
def Apart (options : CompileOptions) : Prop :=
  ∀ condition ∈ options.rootConditions ++ options.contextConditions,
    options.owns condition.variableName = false

instance (options : CompileOptions) : Decidable options.Apart :=
  inferInstanceAs (Decidable (∀ condition ∈ options.rootConditions ++
    options.contextConditions, options.owns condition.variableName = false))

variable {options : CompileOptions}

/-- A condition of the options is not about the variable of a layer. -/
theorem Apart.variableName_ne {condition : Condition} (apart : options.Apart)
    (given : condition ∈ options.rootConditions ++ options.contextConditions)
    (layer : LeaderPath) : condition.variableName ≠ (layer.state options.base).name := by
  intro same
  have foreign := apart condition given
  rw [same, owns_state] at foreign
  cases foreign

theorem Apart.active_notMem (apart : options.Apart) (layer : LeaderPath) :
    (layer.state options.base).active ∉
      options.rootConditions ++ options.contextConditions := by
  intro given
  exact apart.variableName_ne given layer rfl

theorem Apart.inactive_notMem (apart : options.Apart) (layer : LeaderPath) :
    (layer.state options.base).inactive ∉
      options.rootConditions ++ options.contextConditions := by
  intro given
  exact apart.variableName_ne given layer rfl

/-! ## One gate after the other -/

theorem active_notMem_exclusions (layer path : LeaderPath) (keys : List Key) :
    (layer.state options.base).active ∉ options.exclusions path keys := by
  intro member
  rcases List.mem_map.1 member with ⟨key, -, same⟩
  exact StateVariable.active_ne_inactive _ _ same.symm

theorem inactive_mem_exclusions_iff {layer path : LeaderPath} {keys : List Key} :
    (layer.state options.base).inactive ∈ options.exclusions path keys ↔
      ∃ key ∈ keys, layer = path.child key := by
  rw [exclusions, List.mem_map]
  constructor
  · rintro ⟨key, member, same⟩
    have states := StateVariable.inactive_injective same
    exact ⟨key, member, (LeaderPath.state_injective options.base states).symm⟩
  · rintro ⟨key, member, rfl⟩
    exact ⟨key, member, rfl⟩

theorem active_mem_pathGate_iff {layer path : LeaderPath} :
    (layer.state options.base).active ∈ options.pathGate path ↔ layer ∈ path.chain := by
  rw [pathGate, List.mem_map]
  constructor
  · rintro ⟨outer, member, same⟩
    rwa [LeaderPath.state_injective options.base (StateVariable.active_injective same)]
      at member
  · intro member
    exact ⟨layer, member, rfl⟩

theorem inactive_notMem_pathGate (layer path : LeaderPath) :
    (layer.state options.base).inactive ∉ options.pathGate path := by
  intro member
  rcases List.mem_map.1 member with ⟨outer, -, same⟩
  exact StateVariable.active_ne_inactive _ _ same

theorem gate_root : options.gate .root = options.rootConditions := rfl

/-- Below the root nothing but the path gates. -/
theorem gate_of_ne_root {path : LeaderPath} (inner : path ≠ .root) :
    options.gate path = options.pathGate path := by
  rw [gate, if_neg]
  intro outermost
  exact inner (LeaderPath.ext (List.isEmpty_iff.1 outermost))

theorem active_mem_gate_iff {layer path : LeaderPath}
    (foreign : (layer.state options.base).active ∉ options.rootConditions) :
    (layer.state options.base).active ∈ options.gate path ↔ layer ∈ path.chain := by
  by_cases outermost : path = .root
  · rw [outermost, gate_root, LeaderPath.chain_root]
    exact iff_of_false foreign List.not_mem_nil
  · rw [gate_of_ne_root outermost, active_mem_pathGate_iff]

theorem inactive_notMem_gate {layer path : LeaderPath}
    (foreign : (layer.state options.base).inactive ∉ options.rootConditions) :
    (layer.state options.base).inactive ∉ options.gate path := by
  by_cases outermost : path = .root
  · rwa [outermost, gate_root]
  · rw [gate_of_ne_root outermost]
    exact inactive_notMem_pathGate layer path

/-! ## All gates of an entry -/

/-- An entry is gated by its path, by the layers beside it, and by the context. -/
theorem conditions_manipulatorOf (place : TreePlace) :
    (options.manipulatorOf place).conditions =
      options.gate place.path ++ options.exclusions place.path place.excluded ++
        options.contextConditions := by
  rcases place with ⟨path, layers, key, leaf | inner⟩
  · simp only [manipulatorOf, dispatch, leafConditions, TreePlace.excluded, Tree.isLayer,
      Bool.false_eq_true, if_false]
    split
    · rfl
    · rfl
  · rfl

/-- An entry asks for a layer to be held exactly if the layer is on its path. -/
theorem active_mem_conditions_iff {layer : LeaderPath} {place : TreePlace}
    (foreign : (layer.state options.base).active ∉
      options.rootConditions ++ options.contextConditions) :
    (layer.state options.base).active ∈ (options.manipulatorOf place).conditions ↔
      layer ∈ place.path.chain := by
  rw [List.mem_append, not_or] at foreign
  rw [conditions_manipulatorOf, List.mem_append, List.mem_append,
    active_mem_gate_iff foreign.1, or_iff_left foreign.2,
    or_iff_left (active_notMem_exclusions layer _ _)]

/-- An entry asks for a layer not to be held exactly if it excludes the layer. -/
theorem inactive_mem_conditions_iff {layer : LeaderPath} {place : TreePlace}
    (foreign : (layer.state options.base).inactive ∉
      options.rootConditions ++ options.contextConditions) :
    (layer.state options.base).inactive ∈ (options.manipulatorOf place).conditions ↔
      ∃ key ∈ place.excluded, layer = place.path.child key := by
  rw [List.mem_append, not_or] at foreign
  rw [conditions_manipulatorOf, List.mem_append, List.mem_append,
    or_iff_left foreign.2, or_iff_right (inactive_notMem_gate foreign.1),
    inactive_mem_exclusions_iff]

/-- One input is listened for by the entries of one key. -/
theorem from_eq_iff {left right : TreePlace} :
    (options.manipulatorOf left).from_ = (options.manipulatorOf right).from_ ↔
      left.key = right.key := by
  simp [FromEvent.anyModifiers]

/-- Entries with one input and one set of conditions have one address. -/
theorem address_eq_of_same {left right : TreePlace} (apart : options.Apart)
    (input : (options.manipulatorOf left).from_ = (options.manipulatorOf right).from_)
    (conditions : ∀ condition, condition ∈ (options.manipulatorOf left).conditions ↔
      condition ∈ (options.manipulatorOf right).conditions) :
    left.address = right.address := by
  have paths : left.path = right.path := by
    apply LeaderPath.eq_of_chain
    intro layer
    have foreign := apart.active_notMem layer
    rw [← active_mem_conditions_iff foreign, conditions, active_mem_conditions_iff foreign]
  rw [TreePlace.address, TreePlace.address, paths, from_eq_iff.1 input]

end CompileOptions

end KeyLayers
