import KeyLayers.Proofs.Conflict

/-!
# Entries on the leading key

The rule of the leading key comes first and has no conditions, so it is what a
press of that key fires, whatever is held (`HyperKey.firstFit_rule`).  A root with an
entry on the leading key is refused.  An entry further in may be on that key, and is
then never reached.
-/

namespace KeyLayers

/-- The rule of the leading key fires before everything that comes after it. -/
theorem HyperKey.firstFit_rule (leading : HyperKey) (label : String) (rest : List Rule)
    (surroundings : Surroundings) :
    firstFit (leading.rule label :: rest) surroundings leading.key =
      some (leading.manipulator label) := by
  have fits : (leading.manipulator label).fits surroundings leading.key = true := by
    simp [Manipulator.fits, manipulator, FromEvent.anyModifiers]
  rw [firstFit, List.flatMap_cons, rule, List.singleton_append, List.find?_cons_of_pos fits]

namespace Spec

/-- Nothing is refused exactly where no spelling in the root is one of the leading key. -/
theorem rejectShadowing_eq_ok_iff {leading : HyperKey} {profile : String}
    {root : LayerMapping} :
    rejectShadowing leading profile root = .ok () ↔
      ∀ entry ∈ root, Key.parse entry.1 ≠ .ok leading.key := by
  unfold rejectShadowing
  simp only
  split
  · next spelling node found =>
      have member := List.mem_of_find?_eq_some found
      have hit := List.find?_some found
      constructor
      · intro impossible
        cases impossible
      · intro free
        simp only at hit
        split at hit
        · next key parsed =>
            rw [beq_iff_eq.1 hit] at parsed
            exact (free _ member parsed).elim
        · cases hit
  · next absent =>
      refine iff_of_true rfl ?_
      intro entry member parsed
      have missed := List.find?_eq_none.1 absent entry member
      simp only [parsed, beq_self_eq_true, not_true] at missed

/-- What the layers of a profile become under a leading key. -/
structure Leads (spec : Spec) (options : CompileOptions) (leading : HyperKey)
    (tree : TreeEntries) (profile : Profile) : Prop where
  rules : profile.rules = leading.rule options.label ::
    (spec.rules ++ (options.compileTree tree).rules options.label)
  compiled : ((options.compileTree tree).rules options.label).flatMap Rule.manipulators =
    tree.places.map options.manipulatorOf
  /-- Only an entry below the root can listen for the leading key. -/
  root : ∀ place ∈ tree.places, (options.manipulatorOf place).from_.key = leading.key →
    place.path ≠ .root
  first : ∀ surroundings, firstFit profile.rules surroundings leading.key =
    some (leading.manipulator options.label)

/-- Where the root is not refused, no entry of the root listens for the leading key. -/
theorem path_ne_root_of_free {layers : LayerSpec} {tree : TreeEntries} {leading : HyperKey}
    {profile : String} (expanded : layers.expand = .ok tree)
    (free : rejectShadowing leading profile layers.root = .ok ()) {place : TreePlace}
    (member : place ∈ tree.places) (listens : place.key = leading.key) :
    place.path ≠ .root := by
  intro outermost
  have distinct := LayerSpec.distinct_of_expand expanded
  rcases (TreeEntries.mem_places_iff distinct).1 member with ⟨entries, found, -, here⟩
  rw [outermost, LeaderPath.keys_root, TreeEntries.layerAt?_nil] at found
  obtain rfl : tree = entries := Option.some.inj found
  rcases (LayerSpec.expansion_of_expand expanded).exists_of_mem_trees here with
    ⟨spelling, node, written, parsed, -⟩
  rw [listens] at parsed
  exact rejectShadowing_eq_ok_iff.1 free _ written parsed

/--
In each profile of a spec file with a leading key, the rule of that key comes first
and is what the key fires in every state.  No manipulator compiled from an entry of
the root listens for that key.
-/
theorem document_leads {spec : Spec} {hyper : HyperSection} {document : Document}
    (led : spec.hyper = some hyper) (built : spec.document = .ok document) :
    ∃ options leading, spec.options = .ok options ∧ spec.hyperKey = .ok (some leading) ∧
      ∀ profile ∈ document.profiles, ∃ source ∈ spec.allProfiles, ∃ layers tree,
        spec.layerSpec source = .ok layers ∧ layers.expand = .ok tree ∧
          spec.Leads options leading tree profile := by
  rcases exists_of_document led built with ⟨options, leading, chosen, named, each⟩
  refine ⟨options, leading, chosen, named, ?_⟩
  intro profile member
  rcases each profile member with ⟨source, listed, made⟩
  rcases rules_of_buildProfile made with ⟨layers, tree, read, expanded, free, rules⟩
  refine ⟨source, listed, layers, tree, read, expanded, ?_⟩
  exact {
    rules := rules
    compiled := options.manipulators_compileTree options.label tree
    root := by
      intro place within listens
      rw [CompileOptions.from_manipulatorOf] at listens
      exact path_ne_root_of_free expanded free within listens
    first := by
      intro surroundings
      rw [rules]
      exact leading.firstFit_rule options.label _ surroundings }

end Spec

namespace Sample

/-- The sample under its leading key, which no entry is on. -/
theorem ledDocument_leads :
    ledSpec.hyper = some { key := "f19" } ∧ ledSpec.document = .ok ledDocument ∧
      ∀ surroundings, firstFit
          (leadingKey.rule "Hyper" :: (ledOptions.compileTree tree).rules "Hyper")
          surroundings leadingKey.key = some (leadingKey.manipulator "Hyper") := by
  have led : ledSpec.hyper = some { key := "f19" } := rfl
  refine ⟨led, document_led, ?_⟩
  have chosen : ledSpec.options = .ok ledOptions := by decide +kernel
  have named : ledSpec.hyperKey = .ok (some leadingKey) := by decide +kernel
  rcases Spec.document_leads led document_led with ⟨options, leading, found, key, each⟩
  obtain rfl : ledOptions = options := Except.ok.inj (chosen.symm.trans found)
  obtain rfl : leadingKey = leading :=
    Option.some.inj (Except.ok.inj (named.symm.trans key))
  rcases each _ (.head _) with ⟨source, -, layers, other, -, -, leads⟩
  exact leads.first

/-- A layer with an entry on the leading key. -/
def heldSpec : Spec where
  hyper := some { key := "f19" }
  layers := [("a", .table [("f19", .str "app:Notes")])]

def heldTree : TreeEntries := [(outer, .layer [(leadingKey.key, .leaf leaf)])]

def heldLayers : LayerSpec where
  root := [("a", .layer [("f19", .action launch)])]

theorem expand_heldLayers : heldLayers.expand = .ok heldTree :=
  expand_single (by decide +kernel)

theorem compile_heldLayers :
    heldLayers.compile ledOptions = .ok (ledOptions.compileTree heldTree) :=
  LayerSpec.compile_eq_ok_iff.2 ⟨by decide +kernel, heldTree, expand_heldLayers, rfl⟩

def heldDocument : Document where
  global := []
  profiles := [⟨"Default", some true,
    leadingKey.rule "Hyper" :: (ledOptions.compileTree heldTree).rules "Hyper"⟩]

/-- In a layer an entry on the leading key is compiled, although it is never reached. -/
theorem heldDocument_shadowed :
    heldSpec.hyper = some { key := "f19" } ∧ heldSpec.hyperKey = .ok (some leadingKey) ∧
      heldSpec.document = .ok heldDocument ∧
      ∃ source ∈ heldSpec.allProfiles, heldSpec.layerSpec source = .ok heldLayers ∧
        heldLayers.compile ledOptions = .ok (ledOptions.compileTree heldTree) ∧
        ∃ manipulator ∈
            ((ledOptions.compileTree heldTree).rules "Hyper").flatMap Rule.manipulators,
          manipulator.from_.key = leadingKey.key := by
  have chosen : heldSpec.options = .ok ledOptions := by decide +kernel
  have named : heldSpec.hyperKey = .ok (some leadingKey) := by decide +kernel
  have read : heldSpec.layerSpec { name := "Default", selected := some true } =
      .ok heldLayers := rfl
  have begins : Spec.hyperRules ledOptions (some leadingKey) "Default" heldLayers =
      .ok [leadingKey.rule "Hyper"] := rfl
  refine ⟨rfl, named, ?_, _, .head _, read, compile_heldLayers, ?_⟩
  · exact Spec.document_eq_of_single chosen named rfl read begins compile_heldLayers
  · rw [Compilation.rules, CompileOptions.manipulators_compileTree]
    refine ⟨_, List.mem_map_of_mem (.tail _ (.head _)), ?_⟩
    rw [CompileOptions.from_manipulatorOf]
    rfl

end Sample

end KeyLayers
