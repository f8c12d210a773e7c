import KeyLayers.Hyper
import KeyLayers.Spec.Layers
import KeyLayers.Spec.Section

/-!
# From a spec file to a document

Each profile has the rule of the leading key, the rules that are passed through,
and the rules of its layers, in this order.  An error in one profile leaves no
document at all.
-/

namespace KeyLayers.Spec

variable (spec : Spec)

/-- The options of the compilation. -/
def options : Except SpecError CompileOptions :=
  let default : CompileOptions := {}
  let base := spec.compile.base.getD default.base
  let named : CompileOptions :=
    { base
      label := spec.compile.label.getD default.label
      contextConditions :=
        if spec.compile.excludeApps.isEmpty then []
        else [.frontmostUnless spec.compile.excludeApps] }
  match spec.hyper with
  | none => .ok named
  | some hyper =>
      if (base ++ "_").toList.isPrefixOf hyper.variableName.toList then
        .error (.invalid (.collidingVariable hyper.variableName base))
      else .ok { named with rootConditions := [.variableIf hyper.variableName 1] }

/-- The leading key, if there is one. -/
def hyperKey : Except SpecError (Option HyperKey) :=
  match spec.hyper with
  | none => .ok none
  | some hyper =>
      match Key.parse hyper.key with
      | .error error => .error (.unknownName error)
      | .ok key => .ok (some ⟨key, hyper.variableName, hyper.reset⟩)

/-- The profiles; there is one without entries of its own if none is listed. -/
def allProfiles : List ProfileSection :=
  if spec.profiles.isEmpty then [{ name := "Default", selected := some true }]
  else spec.profiles

/-- The layers of a profile. -/
def layerSpec (profile : ProfileSection) : Except SpecError LayerSpec := do
  let base ← layerMapping "layers" spec.layers
  let location := "profiles." ++ profile.name ++ ".layers"
  let root ← overlay location base profile.layers
  addDefinitions { root } spec.definitions

/-- Refuses an entry of the root that is on the leading key. -/
def rejectShadowing (hyper : HyperKey) (profile : String) (root : LayerMapping) :
    Except SpecError Unit :=
  let isShadowed (entry : String × LayerNode) : Bool :=
    match Key.parse entry.1 with
    | .ok key => key == hyper.key
    | .error _ => false
  match root.find? isShadowed with
  | some (spelling, _) => .error (.invalid (.shadowedKey spelling profile hyper.key))
  | none => .ok ()

/-- The compiled layers of a profile. -/
def compileProfile (options : CompileOptions) (profile : ProfileSection) :
    Except SpecError Compilation := do
  let layers ← spec.layerSpec profile
  (layers.compile options).mapError .compile

/-- The rule of the leading key, if no entry of the root is on that key. -/
def hyperRules (options : CompileOptions) (hyper : Option HyperKey) (profile : String)
    (layers : LayerSpec) : Except SpecError (List Rule) :=
  match hyper with
  | none => .ok []
  | some hyper => (rejectShadowing hyper profile layers.root).map fun () =>
      [hyper.rule options.label]

/-- A profile of the document. -/
def buildProfile (options : CompileOptions) (hyper : Option HyperKey)
    (profile : ProfileSection) : Except SpecError Profile := do
  let layers ← spec.layerSpec profile
  let first ← hyperRules options hyper profile.name layers
  let compilation ← (layers.compile options).mapError .compile
  return {
    name := profile.name
    selected := profile.selected
    rules := first ++ spec.rules ++ compilation.blocks.map (LayerBlock.rule options.label) }

/-- The whole document. -/
def document : Except SpecError Document := do
  let options ← spec.options
  let hyper ← spec.hyperKey
  let profiles ← spec.allProfiles.mapM (spec.buildProfile options hyper)
  return { global := spec.global, profiles }

/-- The variables of each profile. -/
def states : Except SpecError (List (String × List (LeaderPath × StateVariable))) := do
  let options ← spec.options
  spec.allProfiles.mapM fun profile => do
    return (profile.name, (← spec.compileProfile options profile).states)

end KeyLayers.Spec
