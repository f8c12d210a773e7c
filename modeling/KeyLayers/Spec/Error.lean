import KeyLayers.Document
import KeyLayers.Layer.Error
import KeyLayers.Notation.Error

/-!
# Errors of a spec file

A spec file can be no TOML at all, have the wrong sections, or say something
that makes no sense.  In the last case the error names the place by the dotted
keys that lead to it.
-/

namespace KeyLayers

/-- What makes no sense in a spec file. -/
inductive SpecFault where
  /-- The variable of the leading key could be that of a layer. -/
  | collidingVariable (name base : String)
  | noTable (location : String)
  | unexpectedKind (location kind : String)
  | unexpectedField (location field : String)
  /-- An entry of the root is on the leading key itself. -/
  | shadowedKey (spelling profile : String) (key : Key)
deriving DecidableEq

/-- Why a spec file cannot be used. -/
inductive SpecError where
  | unreadable (error : ReadError)
  | invalid (fault : SpecFault)
  | invalidLeaf (location : String) (error : LeafError)
  | unknownName (error : NameError)
  | compile (error : CompileError)
deriving DecidableEq

/-- The fault in words. -/
def SpecFault.message : SpecFault → String
  | .collidingVariable name base =>
      s!"Hyper variable '{name}' collides with the layer variable prefix '{base}'"
  | .noTable location => s!"{location} must be a table"
  | .unexpectedKind location kind =>
      s!"{location}: expected a binding string or a table, found {kind}"
  | .unexpectedField location field =>
      s!"{location}: unexpected field '{field}' in raw binding"
  | .shadowedKey spelling profile key =>
      s!"layers.{spelling} (profile '{profile}') uses the Hyper key '{key.name}' " ++
        "and would never fire"

namespace SpecError

/-- What an author reads about an error, apart from where the text goes wrong. -/
def message : SpecError → String
  | unreadable _ => "TOML parse error"
  | invalid fault => s!"Invalid spec file: {fault.message}"
  | invalidLeaf location error => s!"Invalid binding at {location}: {error.message}"
  | unknownName error => error.message
  | compile error => error.message

/-- The defect that an error comes from. -/
def defect? : SpecError → Option Defect
  | compile error => error.defect?
  | _ => none

end SpecError

end KeyLayers
