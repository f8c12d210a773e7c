import KeyLayers.Conflict
import KeyLayers.Proofs.Condition
import KeyLayers.Proofs.Engine
import KeyLayers.Proofs.Layer.Expansion
import KeyLayers.Proofs.Layer.Gates
import KeyLayers.Spec.Build

/-!
# Compiled rules never conflict

Two manipulators clash when they listen for the same input under the same set of
conditions, in whatever order and however often these are written.  A report of
conflicts is empty if and only if no two manipulators clash
(`Conflict.among_eq_nil_iff_pairwise`).

The conditions of a compiled manipulator give its path away, so two that clash
are compiled from one entry (`CompileOptions.pairwise_places`).  The leading key
has a manipulator without conditions, and no entry has none where there is a
leading key.
-/

namespace KeyLayers

/-! ## Reports without conflicts -/

/-- Whether two manipulators listen for one input under one set of conditions. -/
structure Manipulator.Clashes (left right : Manipulator) : Prop where
  input : left.from_ = right.from_
  conditions : ∀ condition, condition ∈ left.conditions ↔ condition ∈ right.conditions

theorem Manipulator.clashes_iff {left right : Manipulator} :
    left.Clashes right ↔ Trigger.of left = Trigger.of right := by
  rw [Trigger.of, Trigger.of, Trigger.mk.injEq, Condition.sortedSet_eq_iff]
  exact ⟨fun clashes => ⟨clashes.input, clashes.conditions⟩, fun same => ⟨same.1, same.2⟩⟩

namespace Conflict

/-- Nothing is reported exactly where no trigger comes twice. -/
theorem among_eq_nil_iff {manipulators : List Located} :
    among manipulators = [] ↔ (manipulators.map Located.trigger).Nodup := by
  have shared : ∀ trigger, (sharing manipulators trigger).length =
      (manipulators.map Located.trigger).count trigger := by
    intro trigger
    rw [sharing, List.count_eq_length_filter, List.filter_map, List.length_map]
    rfl
  have nothing : among manipulators = [] ↔
      (triggers manipulators).filter (isShared manipulators) = [] := by
    rw [among, List.map_eq_nil_iff]
    constructor
    · intro sorted
      have perm := List.mergeSort_perm
        ((triggers manipulators).filter (isShared manipulators)) Trigger.le
      rw [sorted] at perm
      exact perm.symm.eq_nil
    · intro empty
      rw [empty, List.mergeSort_nil]
  rw [nothing, List.filter_eq_nil_iff, List.nodup_iff_count_le_one]
  simp only [isShared, shared, decide_eq_true_eq, Nat.not_lt]
  constructor
  · intro single trigger
    by_cases member : trigger ∈ manipulators.map Located.trigger
    · exact single trigger (List.mem_eraseDups.2 member)
    · rw [List.count_eq_zero_of_not_mem member]
      exact Nat.zero_le 1
  · intro single trigger _
    exact single trigger

/-- Nothing is reported exactly where no two manipulators clash. -/
theorem among_eq_nil_iff_pairwise {rules : List Rule} :
    among (Located.ofRules rules) = [] ↔
      (rules.flatMap Rule.manipulators).Pairwise fun left right => ¬ left.Clashes right := by
  have manipulators : (Located.ofRules rules).map Located.manipulator =
      rules.flatMap Rule.manipulators := by
    simp only [Located.ofRules, List.map_flatMap, List.map_map, Function.comp_def,
      List.map_id']
  rw [among_eq_nil_iff, List.Nodup, List.pairwise_map, ← manipulators, List.pairwise_map]
  simp only [Manipulator.clashes_iff, Located.trigger, ne_eq]

end Conflict

/-- Whether no two manipulators of some rules clash, so that none are reported. -/
structure ConflictFree (rules : List Rule) : Prop where
  apart : (rules.flatMap Rule.manipulators).Pairwise fun left right => ¬ left.Clashes right
  unreported : Conflict.among (Located.ofRules rules) = []

theorem conflictFree_of_pairwise {rules : List Rule}
    (apart : (rules.flatMap Rule.manipulators).Pairwise fun left right =>
      ¬ left.Clashes right) : ConflictFree rules :=
  ⟨apart, Conflict.among_eq_nil_iff_pairwise.2 apart⟩

/-! ## Layers -/

namespace CompileOptions

variable {options : CompileOptions}

/-- Entries at different addresses are compiled to manipulators that do not clash. -/
theorem pairwise_places {tree : TreeEntries} (apart : options.Apart)
    (distinct : tree.Distinct) :
    (tree.places.map options.manipulatorOf).Pairwise fun left right =>
      ¬ left.Clashes right := by
  rw [List.pairwise_map]
  apply (List.pairwise_map.1 (TreeEntries.nodup_addresses distinct)).imp
  intro left right different clashes
  exact different (address_eq_of_same apart clashes.input clashes.conditions)

/-- Where the root has conditions, there is no entry without conditions. -/
theorem conditions_ne_nil (root : options.rootConditions ≠ []) (place : TreePlace) :
    (options.manipulatorOf place).conditions ≠ [] := by
  have gate : options.gate place.path ≠ [] := by
    rw [CompileOptions.gate]
    split
    · exact root
    · next inner =>
        have notRoot : place.path ≠ .root := by
          intro isRoot
          rw [isRoot] at inner
          exact inner rfl
        rw [pathGate, ne_eq, List.map_eq_nil_iff]
        exact List.ne_nil_of_mem (LeaderPath.self_mem_chain notRoot)
  rcases place with ⟨path, layers, key, leaf | inner⟩
  · simp only [manipulatorOf, dispatch, leafConditions, ne_eq, List.append_eq_nil_iff, gate,
      false_and, not_false_eq_true]
  · simp only [manipulatorOf, activation, activationConditions, ne_eq,
      List.append_eq_nil_iff, gate, false_and, not_false_eq_true]

end CompileOptions

theorem LayerSpec.pairwise_of_compile {spec : LayerSpec} {options : CompileOptions}
    {compilation : Compilation} (label : String) (apart : options.Apart)
    (compiled : spec.compile options = .ok compilation) :
    ((compilation.rules label).flatMap Rule.manipulators).Pairwise fun left right =>
      ¬ left.Clashes right := by
  rcases compile_eq_ok_iff.1 compiled with ⟨-, tree, expanded, rfl⟩
  rw [Compilation.rules, CompileOptions.manipulators_compileTree]
  exact CompileOptions.pairwise_places apart (distinct_of_expand expanded)

/-! ## The leading key -/

namespace Spec

variable {spec : Spec} {options : CompileOptions}

/-- The options of a spec file leave the variables of the layers alone. -/
theorem apart_options (found : spec.options = .ok options) : options.Apart := by
  have unnamed : ∀ base : String, (base ++ "_").toList.isPrefixOf "".toList = false := by
    intro base
    rw [← Bool.not_eq_true, List.isPrefixOf_iff_prefix, String.toList_empty,
      List.prefix_nil, String.toList_append]
    simp
  have context : ∀ (base : String) (apps : List String),
      ∀ condition ∈ if apps.isEmpty then [] else [Condition.frontmostUnless apps],
        (base ++ "_").toList.isPrefixOf condition.variableName.toList = false := by
    intro base apps condition member
    split at member
    next => cases member
    next =>
      rw [List.mem_singleton.1 member]
      exact unnamed base
  unfold Spec.options at found
  simp only at found
  split at found
  next =>
    cases found
    intro condition member
    exact context _ _ condition member
  next hyper =>
    split at found
    next => cases found
    next foreign =>
      cases found
      intro condition member
      rcases List.mem_append.1 member with root | given
      · rw [List.mem_singleton.1 root]
        exact Bool.not_eq_true _ ▸ foreign
      · exact context _ _ condition given

theorem rootConditions_options {hyper : HyperSection} (led : spec.hyper = some hyper)
    (found : spec.options = .ok options) :
    options.rootConditions = [.variableIf hyper.variableName 1] := by
  unfold Spec.options at found
  simp only [led] at found
  split at found
  next => cases found
  next =>
    cases found
    rfl

/-- The manipulator of the leading key clashes with that of no entry. -/
theorem not_clashes_leading {hyper : HyperSection} (led : spec.hyper = some hyper)
    (found : spec.options = .ok options) (label : String) (key : HyperKey)
    (place : TreePlace) : ¬ (key.manipulator label).Clashes (options.manipulatorOf place) := by
  intro clashes
  have root : options.rootConditions ≠ [] := by
    rw [rootConditions_options led found]
    exact List.cons_ne_nil _ _
  rcases List.exists_mem_of_ne_nil _ (CompileOptions.conditions_ne_nil root place) with
    ⟨condition, member⟩
  cases (clashes.conditions condition).2 member

/-- A leading key comes first in a profile, and no entry of the root is on it. -/
theorem rules_of_buildProfile {key : HyperKey} {source : ProfileSection} {profile : Profile}
    (built : spec.buildProfile options (some key) source = .ok profile) :
    ∃ layers tree, spec.layerSpec source = .ok layers ∧ layers.expand = .ok tree ∧
      rejectShadowing key source.name layers.root = .ok () ∧
      profile.rules = key.rule options.label ::
        (spec.rules ++ (options.compileTree tree).rules options.label) := by
  simp only [buildProfile, bind_eq_ok_iff, pure_eq_ok_iff, mapError_eq_ok_iff, hyperRules,
    map_eq_ok_iff] at built
  rcases built with ⟨layers, read, first, ⟨⟨⟩, free, rfl⟩, compilation, compiled, rfl⟩
  rcases LayerSpec.compile_eq_ok_iff.1 compiled with ⟨-, tree, expanded, rfl⟩
  exact ⟨layers, tree, read, expanded, free, rfl⟩

/-- A spec file with a leading key builds each of its profiles under that key. -/
theorem exists_of_document {hyper : HyperSection} {document : Document}
    (led : spec.hyper = some hyper) (built : spec.document = .ok document) :
    ∃ options key, spec.options = .ok options ∧ spec.hyperKey = .ok (some key) ∧
      ∀ profile ∈ document.profiles, ∃ source ∈ spec.allProfiles,
        spec.buildProfile options (some key) source = .ok profile := by
  simp only [Spec.document, bind_eq_ok_iff, pure_eq_ok_iff] at built
  rcases built with ⟨options, chosen, leading, named, profiles, made, rfl⟩
  have key : ∃ key, leading = some key := by
    unfold hyperKey at named
    rw [led] at named
    simp only at named
    split at named
    · cases named
    · cases named
      exact ⟨_, rfl⟩
  rcases key with ⟨key, rfl⟩
  exact ⟨options, key, chosen, named, fun profile member => exists_of_mapM made member⟩

/-- The document of a spec file with one profile. -/
theorem document_eq_of_single {leading : Option HyperKey} {source : ProfileSection}
    {layers : LayerSpec} {compilation : Compilation} {first : List Rule}
    (chosen : spec.options = .ok options) (named : spec.hyperKey = .ok leading)
    (single : spec.allProfiles = [source]) (read : spec.layerSpec source = .ok layers)
    (begins : hyperRules options leading source.name layers = .ok first)
    (compiled : layers.compile options = .ok compilation) :
    spec.document = .ok
      { global := spec.global
        profiles := [⟨source.name, source.selected,
          first ++ spec.rules ++ compilation.rules options.label⟩] } := by
  simp only [document, chosen, named, single, buildProfile, read, begins, compiled,
    List.mapM_cons, List.mapM_nil, bind, Except.bind, Except.mapError, pure, Except.pure]
  rfl

/-- Where there is a leading key, each profile begins with its rule and has no conflict. -/
theorem conflictFree_of_document {hyper : HyperSection} {document : Document}
    (led : spec.hyper = some hyper) (own : spec.rules = [])
    (built : spec.document = .ok document) {profile : Profile}
    (member : profile ∈ document.profiles) :
    (∃ options key, spec.options = .ok options ∧ spec.hyperKey = .ok (some key) ∧
      profile.rules.head? = some (key.rule options.label)) ∧ ConflictFree profile.rules := by
  rcases exists_of_document led built with ⟨options, key, chosen, named, each⟩
  rcases each profile member with ⟨source, -, made⟩
  rcases rules_of_buildProfile made with ⟨layers, tree, -, expanded, -, rules⟩
  rw [own, List.nil_append] at rules
  refine ⟨⟨options, key, chosen, named, by rw [rules]; rfl⟩, ?_⟩
  apply conflictFree_of_pairwise
  rw [rules, List.flatMap_cons, Compilation.rules, CompileOptions.manipulators_compileTree]
  apply List.pairwise_cons.2
  constructor
  · intro manipulator among
    rcases List.mem_map.1 among with ⟨place, -, rfl⟩
    exact not_clashes_leading led chosen options.label key place
  · exact CompileOptions.pairwise_places (apart_options chosen)
      (LayerSpec.distinct_of_expand expanded)

end Spec

/--
Compiled layers have no conflict, if the options are about no variable of the
layers.  Nor has any profile of a spec file that has a leading key and passes no
rules through, the rule of the leading key included.
-/
theorem compiled_rules_conflictFree :
    (∀ (spec : LayerSpec) (options : CompileOptions) (compilation : Compilation),
      spec.compile options = .ok compilation → options.Apart →
        ∀ label, ConflictFree (compilation.rules label)) ∧
    ∀ (spec : Spec) (hyper : HyperSection) (document : Document),
      spec.hyper = some hyper → spec.rules = [] → spec.document = .ok document →
        ∀ profile ∈ document.profiles,
          (∃ options key, spec.options = .ok options ∧ spec.hyperKey = .ok (some key) ∧
            profile.rules.head? = some (key.rule options.label)) ∧
          ConflictFree profile.rules := by
  constructor
  · intro spec options compilation compiled apart label
    exact conflictFree_of_pairwise (LayerSpec.pairwise_of_compile label apart compiled)
  · intro spec hyper document led own built profile member
    exact Spec.conflictFree_of_document led own built member

namespace Sample

/-- The layers of `spec` in a spec file, under a leading key. -/
def ledSpec : Spec where
  hyper := some { key := "f19" }
  layers :=
    [("a", .table
      [("b", .table [("n", .str "app:Notes")]), ("l", .str "app:Notes")]),
     ("s", .table [("n", .str "app:Notes")])]

def ledOptions : CompileOptions where
  rootConditions := [.variableIf "hyper" 1]

def leadingKey : HyperKey := ⟨⟨"f19", by decide⟩, "hyper", []⟩

def ledDocument : Document where
  global := []
  profiles := [⟨"Default", some true,
    leadingKey.rule "Hyper" :: (ledOptions.compileTree tree).rules "Hyper"⟩]

theorem layerSpec_led : ledSpec.layerSpec { name := "Default", selected := some true } =
    .ok spec := rfl

theorem compile_led : spec.compile ledOptions = .ok (ledOptions.compileTree tree) :=
  LayerSpec.compile_eq_ok_iff.2 ⟨by decide +kernel, tree, expand_spec, rfl⟩

theorem document_led : ledSpec.document = .ok ledDocument := by
  have chosen : ledSpec.options = .ok ledOptions := by decide +kernel
  have named : ledSpec.hyperKey = .ok (some leadingKey) := by decide +kernel
  have begins : Spec.hyperRules ledOptions (some leadingKey) "Default" spec =
      .ok [leadingKey.rule "Hyper"] := rfl
  exact Spec.document_eq_of_single chosen named rfl layerSpec_led begins compile_led

theorem ledDocument_conflictFree :
    spec.compile ledOptions = .ok (ledOptions.compileTree tree) ∧ ledOptions.Apart ∧
      ConflictFree ((ledOptions.compileTree tree).rules "Hyper") ∧
      ledSpec.hyper = some { key := "f19" } ∧ ledSpec.rules = [] ∧
      ledSpec.document = .ok ledDocument ∧
      ConflictFree
        (leadingKey.rule "Hyper" :: (ledOptions.compileTree tree).rules "Hyper") := by
  have apart : ledOptions.Apart := by decide
  rcases compiled_rules_conflictFree with ⟨layers, profiles⟩
  have led := profiles ledSpec { key := "f19" } ledDocument rfl rfl document_led _ (.head _)
  exact ⟨compile_led, apart, layers spec ledOptions _ compile_led apart "Hyper", rfl, rfl,
    document_led, led.2⟩

end Sample

end KeyLayers
