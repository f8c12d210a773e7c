import KeyLayers.Proofs.Conflict
import KeyLayers.Proofs.Validation

/-!
# What the leading key does

Pressing the leading key sets its variable and then clears the variables that it resets, one
after the other; releasing it clears its own.  The variables to reset stand in the spec
file, and their names go into the document as they are.  So the key does what it is there
for exactly if all of these names are sound and its own variable is not among them
(`Spec.leading_exact`).
-/

namespace KeyLayers

/-! ## The events -/

/-- Each of some variables is cleared, however often it is named, and no other one is. -/
theorem runEvents_clear (names : List String) (value : String → Int) (name : String) :
    runEvents (names.map (Event.set · 0)) value name =
      if name ∈ names then 0 else value name := by
  induction names generalizing value with
  | nil => rw [List.map_nil, runEvents_nil, if_neg List.not_mem_nil]
  | cons first names ih =>
      have step : runEvents ((first :: names).map (Event.set · 0)) value =
          runEvents (names.map (Event.set · 0)) (Function.update value first 0) := rfl
      rw [step, ih]
      by_cases later : name ∈ names
      · rw [if_pos later, if_pos (.tail _ later)]
      · rw [if_neg later]
        by_cases same : name = first
        · subst same
          rw [Function.update_self, if_pos List.mem_cons_self]
        · rw [Function.update_of_ne same,
            if_neg (List.not_mem_cons_of_ne_of_not_mem same later)]

namespace HyperKey

variable {leading : HyperKey} {label : String}

theorem onPress_apply (value : String → Int) (name : String) :
    runEvents (leading.manipulator label).onPress value name =
      if name ∈ leading.reset then 0
      else if name = leading.variableName then 1 else value name := by
  have first : runEvents (leading.manipulator label).onPress value =
      runEvents (leading.reset.map (Event.set · 0))
        (Function.update value leading.variableName 1) := rfl
  rw [first, runEvents_clear, Function.update_apply]

theorem onRelease_eq (value : String → Int) :
    runEvents (leading.manipulator label).onRelease value =
      Function.update value leading.variableName 0 :=
  runEvents_set leading.state 0 value

/-- If its own variable has a sound name, the key has the fault of the first one it resets. -/
theorem checkEvents_manipulator (sound : checkVariableName leading.variableName = .ok ()) :
    checkEvents (leading.manipulator label).events =
      checkAll checkVariableName leading.reset := by
  have events : (leading.manipulator label).events =
      [leading.state.set 1] ++ (leading.reset.map (Event.set · 0) ++
        [.press leading.key, leading.state.set 0]) := by
    rw [Manipulator.events, List.append_assoc]
    rfl
  have first : checkEvents [leading.state.set 1] = .ok () :=
    checkAll_eq_ok_iff.2 (List.forall_mem_singleton.2 sound)
  have last : checkEvents [.press leading.key, leading.state.set 0] = .ok () :=
    checkAll_eq_ok_iff.2 (List.forall_mem_cons.2 ⟨rfl, List.forall_mem_singleton.2 sound⟩)
  have middle : checkEvents (leading.reset.map (Event.set · 0)) =
      checkAll checkVariableName leading.reset := checkAll_map ..
  rw [checkEvents] at first last middle
  rw [events, checkEvents, checkAll_append, first, checkAll_append, last, middle]
  cases checkAll checkVariableName leading.reset <;> rfl

end HyperKey

/-! ## What the key is there for -/

/-- Holds a variable, and clears others when it is pressed, by events that are sound. -/
structure Manipulator.Serves (manipulator : Manipulator) (variableName : String)
    (reset : List String) : Prop where
  sound : checkEvents manipulator.events = .ok ()
  sets : ∀ value, runEvents manipulator.onPress value variableName = 1
  clears : ∀ value, ∀ name ∈ reset, name ≠ variableName →
    runEvents manipulator.onPress value name = 0
  releases : ∀ value, runEvents manipulator.onRelease value variableName = 0

theorem HyperKey.serves_iff {leading : HyperKey} {label : String}
    (sound : checkVariableName leading.variableName = .ok ()) :
    (leading.manipulator label).Serves leading.variableName leading.reset ↔
      leading.variableName ∉ leading.reset ∧
        ∀ name ∈ leading.reset, checkVariableName name = .ok () := by
  rw [← checkAll_eq_ok_iff, ← checkEvents_manipulator sound]
  constructor
  · intro serves
    refine ⟨?_, serves.sound⟩
    intro own
    have set := serves.sets fun _ => 0
    rw [onPress_apply, if_pos own] at set
    cases set
  · rintro ⟨free, sound⟩
    refine ⟨sound, ?_, ?_, ?_⟩
    · intro value
      rw [onPress_apply, if_neg free, if_pos rfl]
    · intro value name member _
      rw [onPress_apply, if_pos member]
    · intro value
      rw [onRelease_eq, Function.update_self]

namespace Spec

variable {spec : Spec}

/-- The names that the leading key has are those of the spec file, as they are written. -/
theorem section_of_hyperKey {hyper : HyperSection} {leading : HyperKey}
    (led : spec.hyper = some hyper) (named : spec.hyperKey = .ok (some leading)) :
    leading.variableName = hyper.variableName ∧ leading.reset = hyper.reset := by
  unfold hyperKey at named
  rw [led] at named
  simp only at named
  split at named
  · cases named
  · cases named
    exact ⟨rfl, rfl⟩

theorem check_of_buildProfile {options : CompileOptions} {leading : Option HyperKey}
    {source : ProfileSection} {profile : Profile}
    (built : spec.buildProfile options leading source = .ok profile) :
    options.check = .ok () := by
  simp only [buildProfile, bind_eq_ok_iff, mapError_eq_ok_iff] at built
  rcases built with ⟨layers, -, first, -, compilation, compiled, -⟩
  exact (LayerSpec.compile_eq_ok_iff.1 compiled).1

theorem checkVariableName_hyper {options : CompileOptions} {hyper : HyperSection}
    (led : spec.hyper = some hyper) (chosen : spec.options = .ok options)
    (sound : options.check = .ok ()) : checkVariableName hyper.variableName = .ok () := by
  apply (CompileOptions.check_eq_ok_iff.1 sound).2 (.variableIf hyper.variableName 1)
  rw [rootConditions_options led chosen]
  exact List.mem_append_left _ List.mem_cons_self

/--
In every profile of a document the rule of the leading key comes first.  Its manipulator does
what it is there for exactly if the variables to reset all have sound names and its own is
none of them.  In any case it is refused only for a name among these, a press clears them all
and sets nothing but its own variable, and a release clears that one.
-/
theorem leading_exact {hyper : HyperSection} {document : Document}
    (led : spec.hyper = some hyper) (built : spec.document = .ok document) :
    ∃ options leading, spec.options = .ok options ∧ spec.hyperKey = .ok (some leading) ∧
      ∀ profile ∈ document.profiles, ∃ title manipulator,
        profile.rules.head? = some ⟨title, [manipulator]⟩ ∧
        manipulator = leading.manipulator options.label ∧
        (manipulator.Serves hyper.variableName hyper.reset ↔
          hyper.variableName ∉ hyper.reset ∧
            ∀ name ∈ hyper.reset, checkVariableName name = .ok ()) ∧
        checkEvents manipulator.events = checkAll checkVariableName hyper.reset ∧
        (∀ value name, runEvents manipulator.onPress value name =
          if name ∈ hyper.reset then 0
          else if name = hyper.variableName then 1 else value name) ∧
        ∀ value, runEvents manipulator.onRelease value =
          Function.update value hyper.variableName 0 := by
  rcases exists_of_document led built with ⟨options, leading, chosen, named, each⟩
  have own := section_of_hyperKey led named
  refine ⟨options, leading, chosen, named, ?_⟩
  intro profile member
  rcases each profile member with ⟨source, -, made⟩
  rcases rules_of_buildProfile made with ⟨layers, tree, -, -, -, rules⟩
  have sound : checkVariableName leading.variableName = .ok () := by
    rw [own.1]
    exact checkVariableName_hyper led chosen (check_of_buildProfile made)
  rw [← own.1, ← own.2, rules]
  exact ⟨_, _, rfl, rfl, HyperKey.serves_iff sound, HyperKey.checkEvents_manipulator sound,
    HyperKey.onPress_apply, HyperKey.onRelease_eq⟩

end Spec

namespace Sample

/-- The layers of `spec` in a spec file, under a leading key that resets some variables. -/
def resettingSpec (reset : List String) : Spec :=
  { ledSpec with hyper := some { key := "f19", reset } }

def resettingKey (reset : List String) : HyperKey :=
  { leadingKey with reset }

def resettingDocument (reset : List String) : Document where
  global := []
  profiles := [⟨"Default", some true,
    (resettingKey reset).rule "Hyper" :: (ledOptions.compileTree tree).rules "Hyper"⟩]

theorem document_resetting (reset : List String) :
    (resettingSpec reset).document = .ok (resettingDocument reset) := by
  have plain : ledSpec.options = .ok ledOptions := by decide +kernel
  have chosen : (resettingSpec reset).options = .ok ledOptions := plain
  have parsed : Key.parse "f19" = .ok leadingKey.key := by decide +kernel
  have named : (resettingSpec reset).hyperKey = .ok (some (resettingKey reset)) := by
    simp only [Spec.hyperKey, resettingSpec, parsed]
    rfl
  have begins : Spec.hyperRules ledOptions (some (resettingKey reset)) "Default" spec =
      .ok [(resettingKey reset).rule "Hyper"] := by
    have free : Spec.rejectShadowing leadingKey "Default" spec.root = .ok () := rfl
    have same : Spec.rejectShadowing (resettingKey reset) "Default" spec.root = .ok () := free
    rw [Spec.hyperRules, same]
    rfl
  exact Spec.document_eq_of_single chosen named rfl layerSpec_led begins compile_led

/-- The variable of an editor is reset as intended. -/
theorem resettingKey_serves :
    (resettingSpec ["vim_mode"]).hyper = some { key := "f19", reset := ["vim_mode"] } ∧
      (resettingSpec ["vim_mode"]).document = .ok (resettingDocument ["vim_mode"]) ∧
      ((resettingKey ["vim_mode"]).manipulator "Hyper").Serves "hyper" ["vim_mode"] := by
  have led : (resettingSpec ["vim_mode"]).hyper =
      some { key := "f19", reset := ["vim_mode"] } := rfl
  have built := document_resetting ["vim_mode"]
  have chosen : (resettingSpec ["vim_mode"]).options = .ok ledOptions := by decide +kernel
  have named : (resettingSpec ["vim_mode"]).hyperKey =
      .ok (some (resettingKey ["vim_mode"])) := by decide +kernel
  rcases Spec.leading_exact led built with ⟨options, leading, found, key, each⟩
  obtain rfl := Except.ok.inj (found.symm.trans chosen)
  obtain rfl := Option.some.inj (Except.ok.inj (key.symm.trans named))
  rcases each _ (.head _) with ⟨title, manipulator, -, rfl, serves, -⟩
  exact ⟨led, built, serves.2 (by decide +kernel)⟩

/--
A key that resets its own variable is never held, and one that resets a variable with a blank
in its name has an event that the document is refused for.  Both documents are built.
-/
theorem resettingKey_does_not_serve :
    (resettingSpec ["hyper"]).document = .ok (resettingDocument ["hyper"]) ∧
      (∀ value, runEvents ((resettingKey ["hyper"]).manipulator "Hyper").onPress value "hyper" =
        0) ∧
      (resettingSpec ["vim mode"]).document = .ok (resettingDocument ["vim mode"]) ∧
      checkEvents ((resettingKey ["vim mode"]).manipulator "Hyper").events =
        .error (.invalidVariableName "vim mode") := by
  refine ⟨document_resetting _, ?_, document_resetting _, by decide +kernel⟩
  intro value
  rw [HyperKey.onPress_apply, if_pos (.head _)]

end Sample

end KeyLayers
