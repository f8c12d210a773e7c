import KeyLayers.Layer.Compilation

/-!
# Rules

The blocks of a compilation become rules named after the entries of the root.
The leading key has a rule of its own, which sets its variable while it is held,
clears some other variables, and types the key when it is tapped.
-/

namespace KeyLayers

/-- The key that is held to reach the entries of the root. -/
structure HyperKey where
  key : Key
  /-- The variable that is 1 while the key is held. -/
  variableName : String
  /-- The variables that are cleared when the key goes down. -/
  reset : List String := []
deriving DecidableEq

/-- The name of the rule of a block. -/
def LayerBlock.title (label : String) (block : LayerBlock) : String :=
  match block.kind with
  | .sublayer => s!"{label} Key sublayer \"" ++ block.key.name ++ "\""
  | .binding => s!"{label} Key + {block.key.name}"

/-- The rule of a block. -/
def LayerBlock.rule (label : String) (block : LayerBlock) : Rule :=
  ⟨block.title label, block.manipulators⟩

namespace HyperKey

/-- The variable of the key. -/
def state (hyper : HyperKey) : StateVariable :=
  ⟨hyper.variableName⟩

/-- The name of the rule; a label that is a group of modifiers shows their signs. -/
def title (label : String) : String :=
  match Modifier.group? label with
  | some group =>
      let signs := String.ofList (group.filterMap Modifier.glyph?)
      s!"{label} Key ({signs})"
  | none => s!"{label} Key"

/-- The manipulator of the key. -/
def manipulator (label : String) (hyper : HyperKey) : Manipulator :=
  { description := some s!"{hyper.key.name} key -> {label} Key"
    from_ := .anyModifiers hyper.key
    onPress := hyper.state.set 1 :: hyper.reset.map (Event.set · 0)
    ifAlone := [.press hyper.key]
    onRelease := [hyper.state.set 0] }

/-- The rule of the key. -/
def rule (label : String) (hyper : HyperKey) : Rule :=
  ⟨title label, [hyper.manipulator label]⟩

end HyperKey

end KeyLayers
