import KeyLayers.Proofs.Engine.Gate
import KeyLayers.Proofs.Layer.Expansion

/-!
# Whole runs of the engine

In a specification without raw events only activations assign variables, and
each assigns the variable of its own layer.  A layer that is not idle is
therefore held by the key that has fired its activation
(`EngineState.Consistent.layers`), however presses and releases follow each
other, and that activation has seen the layers beside its own idle.

From this invariant no two layers of one path are ever held together
(`exclusive_of_reachable`), and no layer outlives its key
(`activated_of_reachable`).
-/

namespace KeyLayers

/-! ## Specifications without raw events -/

/-- Whether a node holds no raw events at any depth. -/
inductive LayerNode.Plain : LayerNode → Prop where
  | action (action : Action) : Plain (.action action)
  | layer {entries : LayerMapping} (inner : ∀ entry ∈ entries, Plain entry.2) :
      Plain (.layer entries)
  | reference (name : String) : Plain (.reference name)

/-- Whether neither the root nor any definition holds raw events. -/
structure LayerSpec.Plain (spec : LayerSpec) : Prop where
  root : ∀ entry ∈ spec.root, entry.2.Plain
  definitions : ∀ definition ∈ spec.definitions, ∀ entry ∈ definition.2, entry.2.Plain

/-- Whether no leaf of a tree assigns a variable. -/
def TreeEntries.Quiet (tree : TreeEntries) : Prop :=
  ∀ (keys : List Key) (entries : TreeEntries), tree.layerAt? keys = some entries →
    ∀ (key : Key) (leaf : Leaf), (key, .leaf leaf) ∈ entries →
      ∀ value : String → Int, runEvents leaf.events value = value

theorem Visit.Enters.plain {definitions : Members LayerMapping} {visit next : Visit}
    (known : ∀ definition ∈ definitions, ∀ entry ∈ definition.2, entry.2.Plain)
    (step : visit.Enters definitions next)
    (plain : ∀ entry ∈ visit.entries, entry.2.Plain) :
    ∀ entry ∈ next.entries, entry.2.Plain := by
  cases step with
  | layer member parsed =>
      cases plain _ member with
      | layer inner => exact inner
  | reference member parsed found =>
      simp only [Members.get?, Option.map_eq_some_iff] at found
      rcases found with ⟨definition, hit, rfl⟩
      exact known definition (List.mem_of_find?_eq_some hit)

theorem LayerSpec.Plain.visited {spec : LayerSpec} (plain : spec.Plain) {visit : Visit}
    (visited : spec.Visits visit) : ∀ entry ∈ visit.entries, entry.2.Plain := by
  induction visited with
  | refl => exact plain.root
  | tail _ step ih => exact step.plain plain.definitions ih

/-- Every leaf of a specification without raw events performs an action. -/
theorem LayerSpec.Plain.exists_action {spec : LayerSpec} {tree entries : TreeEntries}
    {keys : List Key} {key : Key} {leaf : Leaf} (plain : spec.Plain)
    (expanded : spec.expand = .ok tree) (found : tree.layerAt? keys = some entries)
    (member : (key, .leaf leaf) ∈ entries) :
    ∃ action : Action, leaf.events = action.encode := by
  rcases visited_of_layerAt? ⟨keys⟩ expanded found with ⟨visit, visited, -, expansion⟩
  rcases expansion.exists_of_mem_trees member with ⟨spelling, node, here, -, expands⟩
  have nodePlain := plain.visited visited _ here
  cases expands with
  | action action => exact ⟨action, rfl⟩
  | raw binding => cases nodePlain
  | reference found fresh inside =>
      rcases expands_layer_iff.1 inside with ⟨trees, impossible, -⟩
      cases impossible

theorem LayerSpec.Plain.quiet {spec : LayerSpec} {tree : TreeEntries} (plain : spec.Plain)
    (expanded : spec.expand = .ok tree) : tree.Quiet := by
  intro keys entries found key leaf member value
  rcases plain.exists_action expanded found member with ⟨action, events⟩
  rw [events]
  exact runEvents_encode action value

/-! ## What the manipulators assign -/

namespace CompileOptions

variable {options : CompileOptions} {value : String → Int} {layer other : LeaderPath}

theorem state_name_ne (different : other ≠ layer) :
    (other.state options.base).name ≠ (layer.state options.base).name := by
  intro same
  exact different (LeaderPath.state_name_injective options.base same)

/-- A layer is held or idle as before while another one is entered or left. -/
theorem update_state_of_ne {number : Int} (different : other ≠ layer) :
    Function.update value (layer.state options.base).name number
        (other.state options.base).name = value (other.state options.base).name :=
  Function.update_of_ne (state_name_ne different) number value

/-- An activation is recognised by the layer that it sets. -/
theorem activation_injective {path parent : LeaderPath} {layers beside : List Key}
    {key own : Key}
    (same : options.activation path layers key = options.activation parent beside own) :
    path.child key = parent.child own := by
  have events := congrArg Manipulator.onPress same
  simp only [activation, StateVariable.set, List.cons.injEq, and_true] at events
  have names := congrArg Event.assignment? events
  rw [Event.assignment?_set, Event.assignment?_set, Option.some.injEq,
    Prod.mk.injEq] at names
  exact LeaderPath.state_name_injective options.base names.1

end CompileOptions

/-- What fires is the manipulator of a place that fits. -/
theorem exists_of_firstFit {options : CompileOptions} {tree : TreeEntries}
    {label : String} {surroundings : Surroundings} {key : Key} {fired : Manipulator}
    (distinct : tree.Distinct)
    (fit : firstFit ((options.compileTree tree).rules label) surroundings key =
      some fired) :
    ∃ place, tree.Has place ∧ options.manipulatorOf place = fired ∧ place.key = key ∧
      fired.fits surroundings key = true := by
  rw [firstFit, Compilation.rules, CompileOptions.manipulators_compileTree] at fit
  have fits := List.find?_some fit
  rcases List.mem_map.1 (List.mem_of_find?_eq_some fit) with ⟨place, member, rfl⟩
  exact ⟨place, (TreeEntries.mem_places_iff distinct).1 member, rfl,
    CompileOptions.key_of_fits fits, fits⟩

/-! ## The invariant -/

namespace EngineState

/-- The layers and the held keys of a state agree. -/
structure Consistent (options : CompileOptions) (tree : TreeEntries)
    (state : EngineState) : Prop where
  /-- A layer is idle, or its key is held and has fired its activation. -/
  layers : ∀ (parent : LeaderPath) (entries : TreeEntries),
    tree.layerAt? parent.keys = some entries → ∀ key ∈ entries.layerKeys,
      options.Idle state.value (parent.child key) ∨
        (options.Held state.value (parent.child key) ∧
          state.keys key = .down (some (options.activation parent entries.layerKeys key)))
  /-- What a held key has fired is the manipulator of a place on that key. -/
  fired : ∀ (key : Key) (manipulator : Manipulator),
    state.keys key = .down (some manipulator) →
      ∃ place, tree.Has place ∧ options.manipulatorOf place = manipulator ∧
        place.key = key
  exclusive : tree.Exclusive (options.Held state.value)

namespace Consistent

variable {options : CompileOptions} {tree entries : TreeEntries} {state : EngineState}
  {key : Key} {path : LeaderPath}

/-- Another key that goes down or up leaves the keys of the layers as they are. -/
theorem fired_of_update {after : KeyState} (consistent : state.Consistent options tree)
    (known : ∀ manipulator, after = .down (some manipulator) →
      ∃ place, tree.Has place ∧ options.manipulatorOf place = manipulator ∧
        place.key = key)
    (other : Key) (manipulator : Manipulator)
    (held : Function.update state.keys key after other = .down (some manipulator)) :
    ∃ place, tree.Has place ∧ options.manipulatorOf place = manipulator ∧
      place.key = other := by
  by_cases same : other = key
  · subst same
    rw [Function.update_self] at held
    exact known manipulator held
  · rw [Function.update_of_ne same] at held
    exact consistent.fired other manipulator held

/-- A key that has fired no activation goes down or up without effect on layers. -/
theorem update_key (consistent : state.Consistent options tree) (after : KeyState)
    (aside : ∀ (parent : LeaderPath) (layers : List Key) (own : Key),
      state.keys key ≠ .down (some (options.activation parent layers own)))
    (known : ∀ manipulator, after = .down (some manipulator) →
      ∃ place, tree.Has place ∧ options.manipulatorOf place = manipulator ∧
        place.key = key) :
    Consistent options tree
      { state with keys := Function.update state.keys key after } := by
  refine ⟨?_, consistent.fired_of_update known, consistent.exclusive⟩
  intro parent entries found own member
  rcases consistent.layers parent entries found own member with idle | ⟨held, down⟩
  · exact Or.inl idle
  · have different : own ≠ key := by
      rintro rfl
      exact aside parent entries.layerKeys own down
    exact Or.inr ⟨held, (Function.update_of_ne different _ _).trans down⟩

/-- Entering a layer beside which no other is held. -/
theorem enter (consistent : state.Consistent options tree)
    (free : state.keys key = .up) (found : tree.layerAt? path.keys = some entries)
    (member : key ∈ entries.layerKeys)
    (idle : ∀ other ∈ entries.layerKeys, other ≠ key →
      options.Idle state.value (path.child other)) :
    Consistent options tree
      { state with
        value := Function.update state.value ((path.child key).state options.base).name 1
        keys := Function.update state.keys key
          (.down (some (options.activation path entries.layerKeys key))) } := by
  refine ⟨?_, ?_, ?_⟩
  · intro parent others otherFound own ownMember
    by_cases same : parent.child own = path.child key
    · rcases LeaderPath.child_injective same with ⟨rfl, rfl⟩
      obtain rfl : entries = others := Option.some.inj (found.symm.trans otherFound)
      exact Or.inr ⟨Function.update_self _ _ _, Function.update_self _ _ _⟩
    · rcases consistent.layers parent others otherFound own ownMember with
        ownIdle | ⟨held, down⟩
      · exact Or.inl ((CompileOptions.update_state_of_ne same).trans ownIdle)
      · have different : own ≠ key := by
          rintro rfl
          rw [free] at down
          cases down
        exact Or.inr ⟨(CompileOptions.update_state_of_ne same).trans held,
          (Function.update_of_ne different _ _).trans down⟩
  · apply consistent.fired_of_update
    intro manipulator down
    rcases TreeEntries.mem_layerKeys.1 member with ⟨inner, bound⟩
    cases down
    exact ⟨⟨path, entries.layerKeys, key, .layer inner⟩, ⟨entries, found, rfl, bound⟩,
      rfl, rfl⟩
  · have untouched : ∀ {parent : LeaderPath} {own : Key},
        parent.child own ≠ path.child key →
          options.Held (Function.update state.value
            ((path.child key).state options.base).name 1) (parent.child own) →
            options.Held state.value (parent.child own) :=
      fun different held => (CompileOptions.update_state_of_ne different).symm.trans held
    have alone : ∀ own ∈ entries.layerKeys,
        options.Held (Function.update state.value
          ((path.child key).state options.base).name 1) (path.child own) → own = key := by
      intro own ownMember held
      by_contra different
      have apart : path.child own ≠ path.child key := by
        intro same
        exact different (LeaderPath.child_injective same).2
      exact (untouched apart held).not_idle (idle own ownMember different)
    intro parent others otherFound first firstMember second secondMember
      firstHeld secondHeld
    -- only under the path of the entered layer has anything become held
    by_cases same : parent = path
    · subst same
      obtain rfl : entries = others := Option.some.inj (found.symm.trans otherFound)
      rw [alone first firstMember firstHeld, alone second secondMember secondHeld]
    · have apart : ∀ own, parent.child own ≠ path.child key := by
        intro own again
        exact same (LeaderPath.child_injective again).1
      exact consistent.exclusive parent others otherFound first firstMember second
        secondMember (untouched (apart first) firstHeld)
        (untouched (apart second) secondHeld)

/-- Leaving a layer whose activation a key has fired. -/
theorem leave (consistent : state.Consistent options tree) {layers : List Key}
    (held : state.keys key = .down (some (options.activation path layers key))) :
    Consistent options tree
      { state with
        value := Function.update state.value ((path.child key).state options.base).name 0
        keys := Function.update state.keys key .up } := by
  refine ⟨?_, ?_, ?_⟩
  · intro parent others otherFound own ownMember
    by_cases same : parent.child own = path.child key
    · left
      rw [same]
      exact Function.update_self _ _ _
    · rcases consistent.layers parent others otherFound own ownMember with
        ownIdle | ⟨ownHeld, down⟩
      · exact Or.inl ((CompileOptions.update_state_of_ne same).trans ownIdle)
      · -- on this key another layer would have fired an activation of its own
        have different : own ≠ key := by
          rintro rfl
          rw [held] at down
          simp only [KeyState.down.injEq, Option.some.injEq] at down
          exact same (CompileOptions.activation_injective down).symm
        exact Or.inr ⟨(CompileOptions.update_state_of_ne same).trans ownHeld,
          (Function.update_of_ne different _ _).trans down⟩
  · apply consistent.fired_of_update
    intro manipulator down
    cases down
  · have before : ∀ {layer : LeaderPath},
        options.Held (Function.update state.value
          ((path.child key).state options.base).name 0) layer →
          options.Held state.value layer := by
      intro layer layerHeld
      have different : layer ≠ path.child key := by
        rintro rfl
        exact layerHeld.not_idle (Function.update_self _ _ _)
      exact (CompileOptions.update_state_of_ne different).symm.trans layerHeld
    intro parent others otherFound first firstMember second secondMember
      firstHeld secondHeld
    exact consistent.exclusive parent others otherFound first firstMember second
      secondMember (before firstHeld) (before secondHeld)

theorem press {label : String} (consistent : state.Consistent options tree)
    (distinct : tree.Distinct) (quiet : tree.Quiet) (free : state.keys key = .up) :
    (state.press ((options.compileTree tree).rules label) key).Consistent options
      tree := by
  have aside : ∀ (parent : LeaderPath) (layers : List Key) (own : Key),
      state.keys key ≠ .down (some (options.activation parent layers own)) := by
    intro parent layers own down
    rw [free] at down
    cases down
  cases fit : firstFit ((options.compileTree tree).rules label) state.toSurroundings
      key with
  | none =>
      rw [EngineState.press, fit]
      apply consistent.update_key _ aside
      intro manipulator down
      cases down
  | some fired =>
      rcases exists_of_firstFit distinct fit with ⟨place, has, rfl, onKey, fits⟩
      rw [EngineState.press, fit]
      rcases has with ⟨entries, found, layers, member⟩
      rcases place with ⟨path, beside, own, leaf | inner⟩
      · have same := quiet path.keys entries found own leaf member state.value
        have after := consistent.update_key
          (.down (some (options.dispatch path beside own leaf))) aside ?known
        · simpa [CompileOptions.manipulatorOf, CompileOptions.dispatch, same] using after
        · intro manipulator down
          cases down
          exact ⟨⟨path, beside, own, .leaf leaf⟩, ⟨entries, found, layers, member⟩, rfl,
            onKey⟩
      · subst onKey
        subst layers
        have isLayer : own ∈ entries.layerKeys :=
          TreeEntries.mem_layerKeys.2 ⟨inner, member⟩
        have idle := (CompileOptions.activation_fits_iff.1 fits).2.2.1
        have after := consistent.enter free found isLayer idle
        simpa [CompileOptions.manipulatorOf, CompileOptions.activation, runEvents_set]
          using after

theorem release {fired : Option Manipulator} (consistent : state.Consistent options tree)
    (held : state.keys key = .down fired) :
    (state.release key fired).Consistent options tree := by
  have letGo : ∀ manipulator : Manipulator,
      KeyState.up = .down (some manipulator) →
        ∃ place, tree.Has place ∧ options.manipulatorOf place = manipulator ∧
          place.key = key := by
    intro manipulator down
    cases down
  cases fired with
  | none =>
      apply consistent.update_key _ _ letGo
      intro parent layers own down
      rw [held] at down
      cases down
  | some manipulator =>
      rcases consistent.fired key manipulator held with ⟨place, has, rfl, onKey⟩
      rcases place with ⟨path, beside, own, leaf | inner⟩
      · apply consistent.update_key _ _ letGo
        intro parent layers other down
        rw [held] at down
        simp [CompileOptions.manipulatorOf, CompileOptions.dispatch,
          CompileOptions.activation] at down
      · subst onKey
        have after := consistent.leave held
        simpa [EngineState.release, CompileOptions.manipulatorOf,
          CompileOptions.activation, runEvents_set] using after

theorem drift (consistent : state.Consistent options tree) (surroundings : Surroundings)
    (kept : ∀ name, options.owns name = true →
      surroundings.value name = state.value name) :
    Consistent options tree { surroundings with keys := state.keys } := by
  have same : ∀ layer : LeaderPath,
      surroundings.value (layer.state options.base).name =
        state.value (layer.state options.base).name :=
    fun layer => kept _ (options.owns_state layer)
  refine ⟨?_, consistent.fired, ?_⟩
  · intro parent entries found own member
    rw [CompileOptions.Idle, CompileOptions.Held, same]
    exact consistent.layers parent entries found own member
  · intro parent entries found first firstMember second secondMember firstHeld secondHeld
    rw [CompileOptions.Held, same] at firstHeld secondHeld
    exact consistent.exclusive parent entries found first firstMember second secondMember
      firstHeld secondHeld

end Consistent

/-- Every step keeps layers and keys in agreement. -/
theorem Step.consistent {options : CompileOptions} {tree : TreeEntries} {label : String}
    {state after : EngineState} (distinct : tree.Distinct) (quiet : tree.Quiet)
    (step : Step options ((options.compileTree tree).rules label) state after)
    (consistent : state.Consistent options tree) : after.Consistent options tree := by
  cases step with
  | press free => exact consistent.press distinct quiet free
  | release held => exact consistent.release held
  | drift surroundings kept => exact consistent.drift surroundings kept

theorem Reachable.consistent {options : CompileOptions} {tree : TreeEntries}
    {label : String} {state : EngineState} (distinct : tree.Distinct) (quiet : tree.Quiet)
    (reachable : Reachable options ((options.compileTree tree).rules label) state) :
    state.Consistent options tree := by
  induction reachable with
  | start frontmost =>
      refine ⟨?_, ?_, ?_⟩
      · intro parent entries found key member
        exact Or.inl rfl
      · intro key manipulator down
        cases down
      · intro parent entries found first firstMember second secondMember firstHeld
        exact (firstHeld.not_idle rfl).elim
  | next reachable step ih => exact step.consistent distinct quiet ih

end EngineState

/-! ## A run that leaves the outer layer first -/

namespace Sample

theorem plain_noteLayer : (LayerNode.layer [("n", .action launch)]).Plain := by
  apply LayerNode.Plain.layer
  intro entry member
  rw [List.mem_singleton.1 member]
  exact .action launch

theorem plain_spec : spec.Plain := by
  constructor
  · intro entry member
    rcases List.mem_pair.1 member with rfl | rfl
    · apply LayerNode.Plain.layer
      intro other within
      rcases List.mem_pair.1 within with rfl | rfl
      · exact plain_noteLayer
      · exact .action launch
    · exact plain_noteLayer
  · intro definition member
    cases member

def rules : List Rule := (CompileOptions.compileTree {} tree).rules "Hyper"

/-- Before any key goes down. -/
def idle : EngineState :=
  { value := fun _ => 0, frontmost := fun _ => false, keys := fun _ => .up }

/-- After the keys of all layers have gone down, that of the side layer last. -/
def entered : EngineState :=
  ((idle.press rules outer).press rules inner).press rules side

theorem reachable_entered : EngineState.Reachable {} rules entered :=
  .next (.next (.next (.start _) (.press rfl)) (.press rfl)) (.press rfl)

/-- After the key of the outer layer has gone up again. -/
def innerLeft : EngineState :=
  entered.release outer (some (CompileOptions.activation {} .root [outer, side] outer))

theorem reachable_innerLeft : EngineState.Reachable {} rules innerLeft :=
  .next reachable_entered (.release rfl)

/-- After the other keys have gone up, too. -/
def allUp : EngineState :=
  (innerLeft.release inner
    (some (CompileOptions.activation {} ⟨[outer]⟩ [inner] inner))).release side none

theorem reachable_allUp : EngineState.Reachable {} rules allUp :=
  .next (.next reachable_innerLeft (.release rfl)) (.release rfl)

theorem keys_allUp (key : Key) : allUp.keys key = .up := by
  show Function.update (Function.update (Function.update (Function.update
    (Function.update (Function.update (fun _ => KeyState.up) outer _) inner _) side _)
      outer .up) inner .up) side .up key = .up
  simp only [Function.update_apply]
  split_ifs <;> rfl

end Sample

/-! ## Runs of a compiled specification -/

section

variable {spec : LayerSpec} {options : CompileOptions} {compilation : Compilation}
  {tree : TreeEntries} {label : String} {state : EngineState}

theorem consistent_of_reachable (plain : spec.Plain)
    (compiled : spec.compile options = .ok compilation)
    (expanded : spec.expand = .ok tree)
    (reachable : EngineState.Reachable options (compilation.rules label) state) :
    state.Consistent options tree := by
  rw [LayerSpec.compilation_eq compiled expanded] at reachable
  exact reachable.consistent (LayerSpec.distinct_of_expand expanded)
    (plain.quiet expanded)

/-- At no time are two layers of one path held together. -/
theorem exclusive_of_reachable (plain : spec.Plain)
    (compiled : spec.compile options = .ok compilation)
    (expanded : spec.expand = .ok tree)
    (reachable : EngineState.Reachable options (compilation.rules label) state) :
    tree.Exclusive (options.Held state.value) :=
  (consistent_of_reachable plain compiled expanded reachable).exclusive

/-- While the outer layer is held, the key of the side layer does not enter it. -/
theorem Sample.side_not_held_of_entered :
    CompileOptions.Held {} entered.value ⟨[outer]⟩ ∧
      ¬ CompileOptions.Held {} entered.value ⟨[side]⟩ := by
  have exclusive := exclusive_of_reachable plain_spec compile_spec expand_spec
    reachable_entered
  have outerHeld : CompileOptions.Held {} entered.value ⟨[outer]⟩ := rfl
  refine ⟨outerHeld, ?_⟩
  intro sideHeld
  have different : outer ≠ side := by decide
  exact different
    (exclusive .root Sample.tree rfl outer (.head _) side (.tail _ (.head _)) outerHeld
      sideHeld)

/--
A layer is held only while its last key is down and has fired its activation, so
no variable of a layer remains set when all keys are up.
-/
theorem activated_of_reachable (plain : spec.Plain)
    (compiled : spec.compile options = .ok compilation)
    (expanded : spec.expand = .ok tree)
    (reachable : EngineState.Reachable options (compilation.rules label) state) :
    (∀ (parent : LeaderPath) (entries : TreeEntries),
      tree.layerAt? parent.keys = some entries → ∀ key ∈ entries.layerKeys,
        options.Held state.value (parent.child key) →
          state.keys key =
            .down (some (options.activation parent entries.layerKeys key))) ∧
    ((∀ key, state.keys key = .up) →
      ∀ entry ∈ compilation.states, state.value entry.2.name = 0) := by
  have consistent := consistent_of_reachable plain compiled expanded reachable
  constructor
  · intro parent entries found key member held
    rcases consistent.layers parent entries found key member with idle | ⟨-, down⟩
    · exact (held.not_idle idle).elim
    · exact down
  · intro released entry member
    rw [LayerSpec.compilation_eq compiled expanded] at member
    rcases (options.mem_states_iff (LayerSpec.distinct_of_expand expanded)).1 member with
      ⟨parent, entries, key, found, isLayer, rfl⟩
    rcases consistent.layers parent entries found key isLayer with idle | ⟨-, down⟩
    · exact idle
    · rw [released key] at down
      cases down

/-- The inner layer outlives the outer one, but not its own key. -/
theorem Sample.activated_innerLeft :
    innerLeft.value "hyper_sublayer_a__b" = 1 ∧
      innerLeft.keys inner =
        .down (some (CompileOptions.activation {} ⟨[outer]⟩ [inner] inner)) ∧
      ∀ entry ∈ (CompileOptions.compileTree {} Sample.tree).states,
        allUp.value entry.2.name = 0 := by
  have held : innerLeft.value "hyper_sublayer_a__b" = 1 := rfl
  have before := activated_of_reachable plain_spec compile_spec expand_spec
    reachable_innerLeft
  have after := activated_of_reachable plain_spec compile_spec expand_spec reachable_allUp
  exact ⟨held, before.1 ⟨[outer]⟩ outerTree rfl inner (.head _) held, after.2 keys_allUp⟩

end

end KeyLayers
