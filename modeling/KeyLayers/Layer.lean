import KeyLayers.Action

/-!
# The layer tree

Authors write layers inside layers.  A mapping gives each key, in the author's
spelling, a node: an action, a list of raw events, a nested mapping, or the name
of a definition that is used in its place.  Spellings are not resolved here, so
a mapping may well name one key twice.
-/

namespace KeyLayers

/-- Events that are passed to the engine as they are. -/
structure RawBinding where
  events : List Event
  description : Option String
deriving DecidableEq

/-- What a key of a layer does. -/
inductive LayerNode where
  | action (action : Action)
  | raw (binding : RawBinding)
  | layer (entries : List (String × LayerNode))
  | reference (name : String)

/-- The entries of a layer, in the order in which they were written. -/
abbrev LayerMapping := Members LayerNode

/-- A root mapping together with the definitions it may refer to. -/
structure LayerSpec where
  root : LayerMapping
  definitions : Members LayerMapping := []

namespace LayerMapping

/-- Adds an entry at the end, even if the spelling is present already. -/
def insert (mapping : LayerMapping) (key : String) (node : LayerNode) : LayerMapping :=
  mapping ++ [(key, node)]

/-- Replaces the entry with exactly this spelling, or adds one at the end. -/
def replaceOrInsert (mapping : LayerMapping) (key : String) (node : LayerNode) :
    LayerMapping :=
  Members.put mapping key node

end LayerMapping

/-- The specification with one more definition; an older one is replaced. -/
def LayerSpec.define (spec : LayerSpec) (name : String) (mapping : LayerMapping) :
    LayerSpec :=
  { spec with definitions := Members.put spec.definitions name mapping }

end KeyLayers
