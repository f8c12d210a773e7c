import KeyLayers.Proofs.Conflict
import KeyLayers.Proofs.Layer.Listing
import KeyLayers.Spec.Build

/-!
# The variables of a spec file

No two paths have variables of one name, and the variable of the leading key has a
name that no path has (`variableNames_separate`).

The variables that are listed for a profile are those of the rules that are compiled
from its layers: whenever there is a document there is a list, and each profile of the
one goes with an entry of the other (`Spec.states_list_document`).
-/

namespace KeyLayers

/-! ## Names -/

/-- The variable of the leading key is not that of a layer. -/
theorem Spec.hyper_ne_state {spec : Spec} {options : CompileOptions} {hyper : HyperSection}
    (chosen : spec.options = .ok options) (led : spec.hyper = some hyper) (path : LeaderPath) :
    hyper.variableName ≠ (path.state options.base).name := by
  have root : Condition.variableIf hyper.variableName 1 ∈
      options.rootConditions ++ options.contextConditions := by
    rw [rootConditions_options led chosen]
    exact List.mem_append_left _ List.mem_cons_self
  exact (apart_options chosen).variableName_ne root path

/--
Different paths have variables of different names, the path of the root included.
In a spec file with a leading key, none of them is the variable of that key.
-/
theorem variableNames_separate :
    (∀ base : String, Function.Injective fun path : LeaderPath => (path.state base).name) ∧
    ∀ (spec : Spec) (options : CompileOptions) (hyper : HyperSection),
      spec.options = .ok options → spec.hyper = some hyper →
        ∀ path : LeaderPath, hyper.variableName ≠ (path.state options.base).name := by
  constructor
  · intro base left right same
    exact LeaderPath.state_name_injective base same
  · intro spec options hyper chosen led path
    exact Spec.hyper_ne_state chosen led path

namespace Sample

/-- A spec file whose leading key has a variable named like the beginning of all others. -/
def namesake : Spec where
  hyper := some { key := "f18", variableName := "layer" }
  compile := { base := some "layer" }

def namesakeOptions : CompileOptions where
  base := "layer"
  rootConditions := [.variableIf "layer" 1]

/-- The path of one key whose name has an underscore in it. -/
def bracketPath : LeaderPath := ⟨[⟨"open_bracket", by decide⟩]⟩

/-- The path of two keys. -/
def pairPath : LeaderPath := ⟨[⟨"o", by decide⟩, ⟨"period", by decide⟩]⟩

theorem namesake_separate :
    namesake.options = .ok namesakeOptions ∧
      (bracketPath.state "layer").name ≠ (pairPath.state "layer").name ∧
      ∀ path : LeaderPath, "layer" ≠ (path.state "layer").name := by
  have chosen : namesake.options = .ok namesakeOptions := by decide +kernel
  rcases variableNames_separate with ⟨paths, leading⟩
  refine ⟨chosen, (paths "layer").ne ?_, ?_⟩
  · decide
  · exact leading namesake namesakeOptions _ chosen rfl

end Sample

/-! ## Lists -/

/-- Whether some variables are those that the layers of some rules have. -/
structure CompileOptions.Lists (options : CompileOptions) (rules : List Rule)
    (listed : List (LeaderPath × StateVariable)) : Prop where
  /-- Each variable is that of its path. -/
  named : ∀ entry ∈ listed, entry.2 = entry.1.state options.base
  distinctPaths : (listed.map Prod.fst).Nodup
  distinctNames : (listed.map (·.2.name)).Nodup
  /-- The events of the rules set these variables to 1, each in one place, and no others. -/
  sets : (listed.map (·.2.name)).Perm ((rules.flatMap Rule.manipulators).flatMap
    fun manipulator => manipulator.events.filterMap (Event.variableSet? 1))
  /-- The rules ask for no other variable of a layer. -/
  asks : ∀ manipulator ∈ rules.flatMap Rule.manipulators,
    ∀ condition ∈ manipulator.conditions, options.owns condition.variableName = true →
      condition.variableName ∈ listed.map (·.2.name)
  outermostFirst : OutermostFirst (listed.map Prod.fst)

namespace CompileOptions

/-- The events of an entry set a variable to 1 only when the key goes down. -/
theorem sets_manipulatorOf (options : CompileOptions) (place : TreePlace) :
    (options.manipulatorOf place).events.filterMap (Event.variableSet? 1) =
      (options.manipulatorOf place).setsOnPress 1 := by
  rcases place with ⟨path, layers, key, leaf | inner⟩
  · simp [manipulatorOf, dispatch, Manipulator.events, Manipulator.setsOnPress]
  · rfl

end CompileOptions

namespace LayerSpec

variable {spec : LayerSpec} {options : CompileOptions} {compilation : Compilation}

/-- A compilation lists the variables of its rules. -/
theorem lists_of_compile (label : String) (plain : spec.Plain) (apart : options.Apart)
    (compiled : spec.compile options = .ok compilation) :
    options.Lists (compilation.rules label) compilation.states := by
  rcases compile_eq_ok_iff.1 compiled with ⟨-, tree, expanded, rfl⟩
  have distinct := distinct_of_expand expanded
  have states : (options.compileTree tree).states =
      ((Tree.layer tree).layersInside .root).map fun layer =>
        (layer, layer.state options.base) :=
    CompileOptions.innerVariables_eq_map .root (.layer tree)
  have paths : (options.compileTree tree).states.map Prod.fst =
      (Tree.layer tree).layersInside .root :=
    (TreeEntries.layersInside_eq_map options .root (.layer tree)).symm
  have names : (options.compileTree tree).states.map (·.2.name) =
      ((Tree.layer tree).layersInside .root).map fun layer =>
        (layer.state options.base).name := by
    rw [states, List.map_map]
    rfl
  have ordered := TreeEntries.outermostFirst_layersInside distinct .root
  refine ⟨?named, paths ▸ ordered.nodup, ?distinctNames, ?sets, ?asks, paths ▸ ordered⟩
  case named =>
    rw [states]
    intro entry member
    rcases List.mem_map.1 member with ⟨layer, -, rfl⟩
    rfl
  case distinctNames =>
    rw [names]
    exact ordered.nodup.map fun _ _ => LeaderPath.state_name_injective options.base
  case sets =>
    have events : ((options.compileTree tree).rules label |>.flatMap Rule.manipulators).flatMap
          (fun manipulator => manipulator.events.filterMap (Event.variableSet? 1)) =
        (((options.compileTree tree).rules label).flatMap Rule.manipulators).flatMap
          (·.setsOnPress 1) := by
      rw [Compilation.rules, CompileOptions.manipulators_compileTree, List.flatMap_map,
        List.flatMap_map]
      exact List.flatMap_congr fun place _ => options.sets_manipulatorOf place
    rw [names, events, setNames_rules label plain expanded]
    exact (TreeEntries.entered_perm distinct).map _
  case asks =>
    rw [names, Compilation.rules, CompileOptions.manipulators_compileTree]
    intro manipulator member condition asked owned
    rcases List.mem_map.1 member with ⟨place, among, rfl⟩
    rcases CompileOptions.exists_of_owns distinct apart among asked owned with
      ⟨layer, entered, name⟩
    rw [name]
    exact List.mem_map.2 ⟨layer, TreeEntries.mem_layersInside_iff.2 entered, rfl⟩

end LayerSpec

/-! ## Profiles -/

namespace Spec

/-- Whether there are no raw events among the layers of any profile. -/
def Plain (spec : Spec) : Prop :=
  ∀ profile ∈ spec.allProfiles, ∀ layers, spec.layerSpec profile = .ok layers → layers.Plain

/--
The rules of a profile that are compiled from its layers: those behind the rule of
the leading key and the rules that are passed through.
-/
def layerRules (spec : Spec) (profile : Profile) : List Rule :=
  profile.rules.drop ((if spec.hyper.isSome then 1 else 0) + spec.rules.length)

variable {spec : Spec} {options : CompileOptions}

theorem isSome_of_hyperKey {leading : Option HyperKey} (named : spec.hyperKey = .ok leading) :
    leading.isSome = spec.hyper.isSome := by
  unfold hyperKey at named
  split at named
  next absent =>
    cases named
    rw [absent]
    rfl
  next hyper present =>
    rw [present]
    split at named
    next => cases named
    next =>
      cases named
      rfl

theorem length_of_hyperRules {leading : Option HyperKey} {profile : String}
    {layers : LayerSpec} {first : List Rule}
    (begins : hyperRules options leading profile layers = .ok first) :
    first.length = if leading.isSome then 1 else 0 := by
  cases leading with
  | none =>
      cases begins
      rfl
  | some hyper =>
      rcases map_eq_ok_iff.1 begins with ⟨⟨⟩, -, rfl⟩
      rfl

/-- What goes into a profile of the document is what its variables are listed from. -/
theorem compileProfile_of_buildProfile {leading : Option HyperKey}
    (named : spec.hyperKey = .ok leading) {source : ProfileSection} {profile : Profile}
    (built : spec.buildProfile options leading source = .ok profile) :
    ∃ layers compilation, spec.layerSpec source = .ok layers ∧
      layers.compile options = .ok compilation ∧
      spec.compileProfile options source = .ok compilation ∧ profile.name = source.name ∧
      spec.layerRules profile = compilation.rules options.label := by
  simp only [buildProfile, bind_eq_ok_iff, pure_eq_ok_iff, mapError_eq_ok_iff] at built
  rcases built with ⟨layers, read, first, begins, compilation, compiled, rfl⟩
  refine ⟨layers, compilation, read, compiled, ?_, rfl, ?_⟩
  · simp only [compileProfile, bind_eq_ok_iff, mapError_eq_ok_iff]
    exact ⟨layers, read, compiled⟩
  · have before : (if spec.hyper.isSome then 1 else 0) + spec.rules.length =
        (first ++ spec.rules).length := by
      rw [List.length_append, length_of_hyperRules begins, isSome_of_hyperKey named]
    rw [layerRules, before, List.drop_left]
    rfl

/--
Where a spec file without raw events has a document, its variables can be listed,
profile by profile.  The list of a profile holds the variables that its compiled
rules set to 1, each once, and all that they ask for; it names a layer before the
layers nested in it.
-/
theorem states_list_document
    {spec : Spec}
    {document : Document}
    (plain : spec.Plain)
    (built : spec.document = .ok document) :
    ∃ options listing, spec.options = .ok options ∧ spec.states = .ok listing ∧
      List.Forall₂
        (fun profile listed => listed.1 = profile.name ∧
          options.Lists (spec.layerRules profile) listed.2)
        document.profiles listing := by
  simp only [Spec.document, bind_eq_ok_iff, pure_eq_ok_iff, mapM_eq_ok_iff] at built
  rcases built with ⟨options, chosen, leading, named, profiles, made, rfl⟩
  have each : ∀ source ∈ spec.allProfiles, ∀ profile,
      spec.buildProfile options leading source = .ok profile →
        ∃ compilation, spec.compileProfile options source = .ok compilation ∧
          source.name = profile.name ∧
          options.Lists (spec.layerRules profile) compilation.states := by
    intro source among profile built
    rcases compileProfile_of_buildProfile named built with
      ⟨layers, compilation, read, compiled, again, name, rules⟩
    refine ⟨compilation, again, name.symm, ?_⟩
    rw [rules]
    exact LayerSpec.lists_of_compile options.label (plain source among layers read)
      (apart_options chosen) compiled
  have listing : ∃ listing : List (String × List (LeaderPath × StateVariable)),
      List.Forall₂ (fun source listed => ∃ compilation,
        spec.compileProfile options source = .ok compilation ∧
          (source.name, compilation.states) = listed) spec.allProfiles listing ∧
      List.Forall₂ (fun profile listed => listed.1 = profile.name ∧
        options.Lists (spec.layerRules profile) listed.2) profiles listing := by
    clear plain
    generalize spec.allProfiles = sources at made each
    induction made with
    | nil => exact ⟨[], .nil, .nil⟩
    | cons built _ ih =>
        rcases each _ (.head _) _ built with ⟨compilation, compiled, name, lists⟩
        rcases ih fun source among => each source (.tail _ among) with ⟨rest, reads, agree⟩
        exact ⟨_ :: rest, .cons ⟨compilation, compiled, rfl⟩ reads, .cons ⟨name, lists⟩ agree⟩
  rcases listing with ⟨listing, reads, agree⟩
  refine ⟨options, listing, chosen, ?_, agree⟩
  simp only [states, bind_eq_ok_iff, mapM_eq_ok_iff, pure_eq_ok_iff]
  exact ⟨options, chosen, reads⟩

end Spec

namespace Sample

theorem plain_led : ledSpec.Plain := by
  intro profile member layers read
  obtain rfl := List.mem_singleton.1 member
  obtain rfl : spec = layers := Except.ok.inj (layerSpec_led.symm.trans read)
  exact plain_spec

theorem ledDocument_states_listed :
    ledSpec.Plain ∧ ledSpec.document = .ok ledDocument ∧
      ∃ listed, ledSpec.states = .ok [("Default", listed)] ∧
        ledOptions.Lists ((ledOptions.compileTree tree).rules "Hyper") listed := by
  rcases Spec.states_list_document plain_led document_led with
    ⟨options, listing, chosen, listed, agree⟩
  have same : ledSpec.options = .ok ledOptions := by decide +kernel
  obtain rfl : ledOptions = options := Except.ok.inj (same.symm.trans chosen)
  rcases List.forall₂_cons_left_iff.1 agree with ⟨⟨name, states⟩, rest, ⟨rfl, here⟩, none, rfl⟩
  obtain rfl := List.forall₂_nil_left_iff.1 none
  exact ⟨plain_led, document_led, states, listed, here⟩

end Sample

end KeyLayers
