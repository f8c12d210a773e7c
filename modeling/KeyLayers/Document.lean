import KeyLayers.Json.Shape
import KeyLayers.Json.Text
import KeyLayers.Manipulator

/-!
# The engine's document

A document holds settings that are passed through and the profiles with their
rules.  `Document.text` is its written form; `Document.ofText` reads a text and
tells one that is no JSON from one that is no document.
-/

namespace KeyLayers

/-- A named set of rules. -/
structure Profile where
  name : String
  selected : Option Bool
  rules : List Rule
deriving DecidableEq

/-- A complete document. -/
structure Document where
  /-- Settings of the engine, passed through. -/
  global : Members Json
  profiles : List Profile
deriving DecidableEq

/-- Why a text could not be read. -/
inductive ReadError where
  /-- The text does not follow the grammar, or a part of it has no value. -/
  | syntaxError
  /-- The text has a value, but of the wrong shape. -/
  | shapeError
deriving DecidableEq, Repr

namespace Profile

/-- Reads the rules of a profile, which stand in a record of their own. -/
def rulesOfJson? (value : Json) : Option (List Rule) := do
  let fields ← value.record? ["rules"]
  fields.fieldOr? "rules" (Json.list? Rule.ofJson?) []

/-- Reads a profile. -/
def ofJson? (value : Json) : Option Profile := do
  let fields ← value.record? ["name", "selected", "complex_modifications"]
  return {
    name := ← fields.field? "name" Json.text?
    selected := ← fields.fieldOr? "selected" (Json.optional? Json.bool?) none
    rules := ← fields.fieldOr? "complex_modifications" rulesOfJson? [] }

/-- Writes a profile. -/
def toJson (profile : Profile) : Json :=
  .obj ([("name", .str profile.name)] ++
    (profile.selected.map fun value => ("selected", Json.bool value)).toList ++
    [("complex_modifications", .obj [("rules", .arr (profile.rules.map Rule.toJson))])])

end Profile

namespace Document

/-- Reads the members of an object as settings. -/
def globalOfJson? : Json → Option (Members Json)
  | .obj members => some (Json.settleObject members)
  | _ => none

/-- Reads a document. -/
def ofJson? (value : Json) : Option Document := do
  let fields ← value.record? ["global", "profiles"]
  return {
    global := ← fields.fieldOr? "global" globalOfJson? []
    profiles := ← fields.fieldOr? "profiles" (Json.list? Profile.ofJson?) [] }

/-- Writes a document. -/
def toJson (document : Document) : Json :=
  .obj [("global", .obj document.global),
    ("profiles", .arr (document.profiles.map Profile.toJson))]

/-- The records of a manipulator that skip other members. -/
def manipulatorShape : Json.Shape :=
  .record true
    [("from", .record false
      [("key_code", .whole),
        ("modifiers", .record false [("mandatory", .whole), ("optional", .whole)])])]

/-- The records of a document that skip other members. -/
def shape : Json.Shape :=
  .record false
    [("global", .whole),
      ("profiles", .list (.record false
        [("name", .whole), ("selected", .whole),
          ("complex_modifications", .record false
            [("rules", .list (.record false
              [("description", .whole), ("manipulators", .list manipulatorShape)]))])]))]

/-- Reads the text of a document. -/
def ofText (text : String) : Except ReadError Document :=
  match Json.Source.ofText? text with
  | none => .error .syntaxError
  | some source =>
      match ((source.prune shape).eval? Json.greatestDepth).bind ofJson? with
      | some document => .ok document
      | none =>
          if (source.eval? Json.greatestDepth).isNone then .error .syntaxError
          else .error .shapeError

/-- The written form of a document. -/
def text (document : Document) : String :=
  document.toJson.pretty

/-- Every rule with the name of its profile, in order. -/
def rules (document : Document) : List (String × Rule) :=
  document.profiles.flatMap fun profile => profile.rules.map (profile.name, ·)

end Document

end KeyLayers
