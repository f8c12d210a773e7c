import KeyLayers.Layer.Path
import KeyLayers.Validation

/-!
# Errors of a layer specification

Every error names the place where it was found: the path of a layer, and the
key in the author's spelling.
-/

namespace KeyLayers

/-- Why a specification cannot be compiled. -/
inductive CompileError where
  | unknownKey (key : String) (path : LeaderPath)
  /-- Two spellings of one key under the same path. -/
  | duplicateKey (key first : String) (path : LeaderPath)
  | emptyLayer (path : LeaderPath)
  /-- Definitions that refer to each other, the first one repeated at the end. -/
  | cyclicReference (names : List String)
  | unknownReference (name : String) (path : LeaderPath)
  | invalidBinding (key : String) (path : LeaderPath) (defect : Defect)
  | invalidOptions (defect : Defect)
deriving DecidableEq

namespace CompileError

/-- What an author reads about an error. -/
def message : CompileError → String
  | unknownKey key path => s!"Unknown key name '{key}' under {path.display}"
  | duplicateKey key first path =>
      s!"Duplicate key '{key}' under {path.display} (also written as '{first}')"
  | emptyLayer path => s!"Layer {path.display} has no bindings"
  | cyclicReference names => "Cyclic layer reference: " ++ String.intercalate " -> " names
  | unknownReference name path => s!"Unknown layer reference '{name}' under {path.display}"
  | invalidBinding key path defect =>
      s!"Invalid binding '{key}' under {path.display}: {defect.message}"
  | invalidOptions defect => s!"Invalid compile options: {defect.message}"

/-- The defect that an error comes from. -/
def defect? : CompileError → Option Defect
  | invalidBinding _ _ defect | invalidOptions defect => some defect
  | _ => none

end CompileError

end KeyLayers
