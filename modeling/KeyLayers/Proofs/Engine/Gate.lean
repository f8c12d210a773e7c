import KeyLayers.Proofs.Engine
import KeyLayers.Proofs.Layer.Place

/-!
# What the conditions of an entry say

A layer is held while its variable is 1.  The manipulator of an entry fits where
all layers on its path are held, where certain layers beside it are not, and
where the conditions of the options hold (`activation_fits_iff` and
`dispatch_fits_iff`).  Nothing else about a manipulator decides whether it
fires.
-/

namespace KeyLayers

namespace CompileOptions

variable (options : CompileOptions) (surroundings : Surroundings)

/-- Whether the variable of a layer is 1. -/
def Held (value : String → Int) (layer : LeaderPath) : Prop :=
  value (layer.state options.base).name = 1

instance (value : String → Int) (layer : LeaderPath) :
    Decidable (options.Held value layer) :=
  inferInstanceAs (Decidable (value (layer.state options.base).name = 1))

/-- Whether the variable of a layer is 0. -/
def Idle (value : String → Int) (layer : LeaderPath) : Prop :=
  value (layer.state options.base).name = 0

/-- Whether all layers on a path are held; the root has conditions of its own. -/
structure Opens (path : LeaderPath) : Prop where
  root : path = .root →
    ∀ condition ∈ options.rootConditions, condition.holds surroundings = true
  held : ∀ layer ∈ path.chain, options.Held surroundings.value layer

/-- Whether the conditions hold that the options put on every manipulator. -/
def InContext : Prop :=
  ∀ condition ∈ options.contextConditions, condition.holds surroundings = true

variable {options surroundings}

theorem Held.not_idle {value : String → Int} {layer : LeaderPath}
    (held : options.Held value layer) : ¬ options.Idle value layer := by
  intro idle
  rw [Held] at held
  rw [Idle, held] at idle
  cases idle

theorem pathGate_holds_iff {path : LeaderPath} :
    (options.pathGate path).all (·.holds surroundings) = true ↔
      ∀ layer ∈ path.chain, options.Held surroundings.value layer := by
  simp [pathGate, Held]

theorem exclusions_hold_iff {path : LeaderPath} {keys : List Key} :
    (options.exclusions path keys).all (·.holds surroundings) = true ↔
      ∀ key ∈ keys, options.Idle surroundings.value (path.child key) := by
  simp [exclusions, Idle]

theorem gate_holds_iff {path : LeaderPath} :
    (options.gate path).all (·.holds surroundings) = true ↔
      options.Opens surroundings path := by
  rw [gate]
  split
  · next outermost =>
      have isRoot : path = .root := LeaderPath.ext (List.isEmpty_iff.1 outermost)
      rw [List.all_eq_true]
      constructor
      · intro conditions
        exact ⟨fun _ => conditions, by simp [isRoot]⟩
      · intro opens
        exact opens.root isRoot
  · next inner =>
      have notRoot : path ≠ .root := by
        rintro rfl
        exact inner rfl
      rw [pathGate_holds_iff]
      constructor
      · intro held
        exact ⟨fun isRoot => (notRoot isRoot).elim, held⟩
      · intro opens
        exact opens.held

theorem context_holds_iff :
    options.contextConditions.all (·.holds surroundings) = true ↔
      options.InContext surroundings :=
  List.all_eq_true

/-- An activation fits where no other layer beside its own is held. -/
theorem activation_fits_iff {path : LeaderPath} {layers : List Key} {own key : Key} :
    (options.activation path layers own).fits surroundings key = true ↔
      own = key ∧ options.Opens surroundings path ∧
        (∀ other ∈ layers, other ≠ own →
          options.Idle surroundings.value (path.child other)) ∧
        options.InContext surroundings := by
  simp only [Manipulator.fits, activation, FromEvent.anyModifiers, activationConditions,
    List.all_append, Bool.and_eq_true, beq_iff_eq, gate_holds_iff, exclusions_hold_iff,
    context_holds_iff, List.mem_filter, bne_iff_ne, and_imp, and_assoc]

/-- A leaf of the root fits where no layer of the root is held. -/
theorem dispatch_fits_iff {path : LeaderPath} {layers : List Key} {own key : Key}
    {leaf : Leaf} :
    (options.dispatch path layers own leaf).fits surroundings key = true ↔
      own = key ∧ options.Opens surroundings path ∧
        (path = .root → ∀ other ∈ layers,
          options.Idle surroundings.value (path.child other)) ∧
        options.InContext surroundings := by
  have exclusions :
      (if path.keys.isEmpty = true then options.exclusions path layers else []).all
          (·.holds surroundings) = true ↔
        (path = .root → ∀ other ∈ layers,
          options.Idle surroundings.value (path.child other)) := by
    split
    · next outermost =>
        have isRoot : path = .root := LeaderPath.ext (List.isEmpty_iff.1 outermost)
        rw [exclusions_hold_iff]
        exact ⟨fun idle _ => idle, fun idle => idle isRoot⟩
    · next inner =>
        have notRoot : path ≠ .root := by
          rintro rfl
          exact inner rfl
        exact ⟨fun _ isRoot => (notRoot isRoot).elim, fun _ => rfl⟩
  simp only [Manipulator.fits, dispatch, FromEvent.anyModifiers, leafConditions,
    List.all_append, Bool.and_eq_true, beq_iff_eq, gate_holds_iff, exclusions,
    context_holds_iff, and_assoc]

theorem key_of_fits {place : TreePlace} {key : Key}
    (fits : (options.manipulatorOf place).fits surroundings key = true) :
    place.key = key := by
  rw [Manipulator.fits, from_manipulatorOf, Bool.and_eq_true] at fits
  exact beq_iff_eq.1 fits.1

theorem held_of_fits {place : TreePlace} {key : Key} {layer : LeaderPath}
    (fits : (options.manipulatorOf place).fits surroundings key = true)
    (around : layer ∈ place.path.chain) : options.Held surroundings.value layer := by
  rcases place with ⟨path, layers, own, leaf | inner⟩
  · exact (dispatch_fits_iff.1 fits).2.1.held layer around
  · exact (activation_fits_iff.1 fits).2.1.held layer around

end CompileOptions

/-- Whether under each path at most one layer has a property. -/
def TreeEntries.Exclusive (tree : TreeEntries) (held : LeaderPath → Prop) : Prop :=
  ∀ (parent : LeaderPath) (entries : TreeEntries),
    tree.layerAt? parent.keys = some entries →
      ∀ first ∈ entries.layerKeys, ∀ second ∈ entries.layerKeys,
        held (parent.child first) → held (parent.child second) → first = second

theorem TreeEntries.Exclusive.alone {tree entries : TreeEntries} {held : LeaderPath → Prop}
    {path : LeaderPath} {key : Key} (exclusive : tree.Exclusive held)
    (found : tree.layerAt? path.keys = some entries) (beside : key ∈ entries.layerKeys)
    (keyHeld : held (path.child key)) :
    ∀ other ∈ entries.layerKeys, other ≠ key → ¬ held (path.child other) := by
  intro other member different otherHeld
  exact different (exclusive path entries found other member key beside otherHeld keyHeld)

end KeyLayers
