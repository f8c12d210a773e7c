import KeyLayers.Notation.Leaf
import KeyLayers.Spec.Error
import KeyLayers.Toml.Value

/-!
# Layers in a spec file

In a table of layers a text is a leaf, a table with a member `to` is a list of
raw events, and any other table is a layer inside the layer.  The entries keep
the order of the file.
-/

namespace KeyLayers.Spec

/-- The place of a member of a table. -/
def within (location key : String) : String :=
  location ++ "." ++ key

/-- Reads the fields of a raw binding in order. -/
def rawBinding (location : String) (binding : RawBinding) :
    List (String × Toml) → Except SpecError RawBinding
  | [] => .ok binding
  | ("to", .array events) :: rest =>
      rawBinding location
        { binding with events := events.map fun item => Event.ofJson item.toJson } rest
  | ("description", .str text) :: rest =>
      rawBinding location { binding with description := some text } rest
  | (field, _) :: _ => .error (.invalid (.unexpectedField location field))

mutual

/-- The node of an entry at a place. -/
def layerNode (location : String) : Toml → Except SpecError LayerNode
  | .str text => (Notation.parseLeaf text).mapError (.invalidLeaf location)
  | .table members =>
      if (Members.get? members "to").isSome then
        (rawBinding location ⟨[], none⟩ members).map .raw
      else (layerMapping location members).map .layer
  | other => .error (.invalid (.unexpectedKind location other.kind))

/-- The entries of a table at a place. -/
def layerMapping (location : String) : List (String × Toml) → Except SpecError LayerMapping
  | [] => .ok []
  | (key, value) :: rest => do
      let node ← layerNode (within location key) value
      return (key, node) :: (← layerMapping location rest)

end

/-- Lays the entries of another table over a mapping: in place, or at the end. -/
def overlay (location : String) (mapping : LayerMapping) :
    List (String × Toml) → Except SpecError LayerMapping
  | [] => .ok mapping
  | (key, value) :: rest => do
      let node ← layerNode (within location key) value
      overlay location (mapping.replaceOrInsert key node) rest

/-- Adds the definitions of a table to a specification. -/
def addDefinitions (spec : LayerSpec) : List (String × Toml) → Except SpecError LayerSpec
  | [] => .ok spec
  | (name, value) :: rest => do
      let location := within "definitions" name
      match value with
      | .table members =>
          addDefinitions (spec.define name (← layerMapping location members)) rest
      | _ => .error (.invalid (.noTable location))

end KeyLayers.Spec
