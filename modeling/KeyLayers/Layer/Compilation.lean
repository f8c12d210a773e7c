import KeyLayers.Layer.Tree
import KeyLayers.Manipulator

/-!
# Compiled layers

Every entry of the expanded tree becomes one manipulator.  That of a layer is
its activation: holding the key sets the variable of the layer to 1, releasing
it resets it, and tapping it types the key.  That of a leaf dispatches its
events.

A manipulator below the root is gated by the variables of all layers on its
path.  An activation is also gated by the other layers beside it not being held,
and so is a leaf of the root by all layers of the root.

Within a layer the activation comes first, then the layers inside it, then its
own leaves.  As the engine fires the first manipulator that fits, a key bound
deeper wins over the same key bound further out.

The options name the variables and the rules, and add conditions: those of the
root gate what can be reached without a layer, those of the context gate
everything.
-/

namespace KeyLayers

/-! ## Options -/

/-- What shapes the compiled manipulators. -/
structure CompileOptions where
  /-- What the name of every variable begins with. -/
  base : String := "hyper_sublayer"
  /-- The word for the leading key in descriptions. -/
  label : String := "Hyper"
  rootConditions : List Condition := []
  contextConditions : List Condition := []
deriving DecidableEq

/-- Checks the names and patterns of the options. -/
def CompileOptions.check (options : CompileOptions) : Except CompileError Unit :=
  let checked : Except Defect Unit := do
    checkVariableName options.base
    checkAll Condition.check (options.rootConditions ++ options.contextConditions)
  checked.mapError .invalidOptions

/-! ## What is compiled -/

/-- What an entry of the root has become. -/
inductive BlockKind where
  /-- A layer and everything inside it. -/
  | sublayer
  /-- A leaf. -/
  | binding
deriving DecidableEq, Repr

/-- The manipulators compiled from one entry of the root. -/
structure LayerBlock where
  key : Key
  kind : BlockKind
  manipulators : List Manipulator

/-- The outcome of a compilation. -/
structure Compilation where
  /-- A block for each entry of the root, in order. -/
  blocks : List LayerBlock
  /-- The variables of all layers, a layer before the layers inside it. -/
  states : List (LeaderPath × StateVariable)

namespace CompileOptions

variable (options : CompileOptions)

/-! ## Conditions -/

/-- The conditions that every layer on a path is held. -/
def pathGate (path : LeaderPath) : List Condition :=
  path.chain.map fun layer => (layer.state options.base).active

/-- The conditions that some layers directly under a path are not held. -/
def exclusions (path : LeaderPath) (keys : List Key) : List Condition :=
  keys.map fun key => ((path.child key).state options.base).inactive

/-- What gates the entries under a path: the root has conditions of its own. -/
def gate (path : LeaderPath) : List Condition :=
  if path.keys.isEmpty then options.rootConditions else options.pathGate path

/-- The conditions of the activation of a layer beside the given ones. -/
def activationConditions (path : LeaderPath) (layers : List Key) (key : Key) :
    List Condition :=
  options.gate path ++ options.exclusions path (layers.filter (· != key)) ++
    options.contextConditions

/-- The conditions of a leaf; at the root no layer may be held. -/
def leafConditions (path : LeaderPath) (layers : List Key) : List Condition :=
  options.gate path ++
    (if path.keys.isEmpty then options.exclusions path layers else []) ++
    options.contextConditions

/-! ## Manipulators -/

/-- The manipulator that a layer is entered and left by. -/
def activation (path : LeaderPath) (layers : List Key) (key : Key) : Manipulator :=
  let layer := path.child key
  let state := layer.state options.base
  { description := some s!"Toggle {options.label} sublayer {layer.display}"
    from_ := .anyModifiers key
    onPress := [state.set 1]
    ifAlone := [.press key]
    onRelease := [state.set 0]
    conditions := options.activationConditions path layers key }

/-- The manipulator that sends the events of a leaf. -/
def dispatch (path : LeaderPath) (layers : List Key) (key : Key) (leaf : Leaf) :
    Manipulator :=
  { description := leaf.description
    from_ := .anyModifiers key
    onPress := leaf.events
    conditions := options.leafConditions path layers }

/-- The manipulators of the leaves among some entries. -/
def dispatches (path : LeaderPath) (layers : List Key) (entries : TreeEntries) :
    List Manipulator :=
  entries.filterMap fun
    | (key, .leaf leaf) => some (options.dispatch path layers key leaf)
    | (_, .layer _) => none

mutual

/-- The manipulators of an entry under a path, beside the given layers. -/
def manipulators (path : LeaderPath) (layers : List Key) (key : Key) :
    Tree → List Manipulator
  | .leaf leaf => [options.dispatch path layers key leaf]
  | .layer entries =>
      let inner := TreeEntries.layerKeys entries
      options.activation path layers key ::
        nested (path.child key) inner entries ++
        options.dispatches (path.child key) inner entries

/-- The manipulators of the layers among some entries. -/
def nested (path : LeaderPath) (layers : List Key) :
    List (Key × Tree) → List Manipulator
  | [] => []
  | (_, .leaf _) :: rest => nested path layers rest
  | (key, .layer entries) :: rest =>
      manipulators path layers key (.layer entries) ++ nested path layers rest

end

/-! ## Variables -/

/-- The variables of the layers directly under a path. -/
def variablesOf (path : LeaderPath) (keys : List Key) :
    List (LeaderPath × StateVariable) :=
  keys.map fun key => (path.child key, (path.child key).state options.base)

mutual

/-- The variables inside an entry. -/
def innerVariables (path : LeaderPath) : Tree → List (LeaderPath × StateVariable)
  | .leaf _ => []
  | .layer entries =>
      options.variablesOf path (TreeEntries.layerKeys entries) ++
        deeperVariables path entries

/-- The variables inside each of some entries, one entry after the other. -/
def deeperVariables (path : LeaderPath) :
    List (Key × Tree) → List (LeaderPath × StateVariable)
  | [] => []
  | (key, tree) :: rest =>
      innerVariables (path.child key) tree ++ deeperVariables path rest

end

/-! ## The whole tree -/

/-- The block of an entry of the root. -/
def block (layers : List Key) (key : Key) (tree : Tree) : LayerBlock :=
  { key
    kind := if tree.isLayer then .sublayer else .binding
    manipulators := options.manipulators .root layers key tree }

/-- The compiled form of an expanded tree. -/
def compileTree (entries : TreeEntries) : Compilation :=
  { blocks := entries.map fun (key, tree) => options.block entries.layerKeys key tree
    states := options.innerVariables .root (.layer entries) }

end CompileOptions

/-- Compiles a specification. -/
def LayerSpec.compile (spec : LayerSpec) (options : CompileOptions) :
    Except CompileError Compilation := do
  options.check
  return options.compileTree (← spec.expand)

end KeyLayers
