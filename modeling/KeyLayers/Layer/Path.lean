import KeyLayers.Condition
import KeyLayers.Event

/-!
# Leader paths and their variables

A layer is identified by the keys that are held to be in it, outermost first.
Every path has a variable of its own, whose name is made from the path alone:
the names of the keys joined by two underscores, after a prefix common to all
of them.
-/

namespace KeyLayers

/-- The keys that lead to a layer, outermost first. -/
structure LeaderPath where
  keys : List Key
deriving DecidableEq

/-- A variable of the engine that is 1 while a layer is held and 0 otherwise. -/
structure StateVariable where
  name : String
deriving DecidableEq

namespace LeaderPath

/-- The path of the root, which no key leads to. -/
def root : LeaderPath := ⟨[]⟩

/-- The path one key further. -/
def child (path : LeaderPath) (key : Key) : LeaderPath :=
  ⟨path.keys ++ [key]⟩

/-- How many keys lead to the layer. -/
def depth (path : LeaderPath) : Nat :=
  path.keys.length

/-- The path as authors read it. -/
def display (path : LeaderPath) : String :=
  if path.keys.isEmpty then "<root>"
  else String.intercalate " > " (path.keys.map Key.name)

/-- The paths of a layer and of the layers around it, outermost first. -/
def chain (path : LeaderPath) : List LeaderPath :=
  (List.range path.depth).map fun level => ⟨path.keys.take (level + 1)⟩

/-- The variable of a path, its name beginning with the given one. -/
def state (base : String) (path : LeaderPath) : StateVariable :=
  ⟨base ++ "_" ++ String.intercalate "__" (path.keys.map Key.name)⟩

end LeaderPath

namespace StateVariable

/-- The event that assigns a value. -/
def set (state : StateVariable) (value : Int) : Event :=
  .set state.name value

/-- The condition that the layer is held. -/
def active (state : StateVariable) : Condition :=
  .variableIf state.name 1

/-- The condition that the layer is not held. -/
def inactive (state : StateVariable) : Condition :=
  .variableIf state.name 0

end StateVariable

end KeyLayers
