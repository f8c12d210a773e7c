import KeyLayers.Condition
import KeyLayers.Event.Json

/-!
# Manipulators and rules

A manipulator maps one physical input to output events while its conditions
hold; a rule is a named list of manipulators.  Of all manipulators of a profile
in order, the engine fires the first one that listens for the input and whose
conditions hold.

The JSON forms omit empty lists and absent fields, and keep the members of a
manipulator that have no field here.
-/

namespace KeyLayers

/-- The modifiers that an input must have, and those it may have. -/
structure FromModifiers where
  mandatory : List Modifier
  optional : List Modifier
deriving DecidableEq

/-- The physical input that a manipulator listens for. -/
structure FromEvent where
  key : Key
  modifiers : Option FromModifiers
deriving DecidableEq

/-- One mapping from an input to output events. -/
structure Manipulator where
  description : Option String := none
  from_ : FromEvent
  /-- What happens when the key goes down. -/
  onPress : List Event := []
  /-- What happens instead when the key is pressed and released alone. -/
  ifAlone : List Event := []
  /-- What happens when the key goes up. -/
  onRelease : List Event := []
  conditions : List Condition := []
  /-- The members that have no field here. -/
  extra : Members Json := []
deriving DecidableEq

/-- A named block of manipulators. -/
structure Rule where
  description : String
  manipulators : List Manipulator
deriving DecidableEq

/-- The input of a key, whatever modifiers are held. -/
def FromEvent.anyModifiers (key : Key) : FromEvent :=
  ⟨key, some ⟨[], [.any]⟩⟩

namespace Manipulator

/-- The variables that are set to a value when the key goes down. -/
def setsOnPress (manipulator : Manipulator) (value : Int) : List String :=
  manipulator.onPress.filterMap (Event.variableSet? value)

/-- The variables that are set to a value when the key goes up. -/
def setsOnRelease (manipulator : Manipulator) (value : Int) : List String :=
  manipulator.onRelease.filterMap (Event.variableSet? value)

/-- Every event of a manipulator. -/
def events (manipulator : Manipulator) : List Event :=
  manipulator.onPress ++ manipulator.ifAlone ++ manipulator.onRelease

end Manipulator

/-! ## JSON -/

/-- A member for a list, unless the list is empty. -/
def listMember {α : Type} (name : String) (write : α → Json) (items : List α) :
    List (String × Json) :=
  if items.isEmpty then [] else [(name, .arr (items.map write))]

namespace FromModifiers

/-- Reads the two lists, each empty by default. -/
def ofJson? (value : Json) : Option FromModifiers := do
  let fields ← value.record? ["mandatory", "optional"]
  let modifiers (name : String) :=
    fields.fieldOr? name (Json.list? Modifier.ofJson?) []
  return { mandatory := ← modifiers "mandatory", optional := ← modifiers "optional" }

/-- Writes the lists that are not empty. -/
def toJson (modifiers : FromModifiers) : Json :=
  .obj (listMember "mandatory" Modifier.toJson modifiers.mandatory ++
    listMember "optional" Modifier.toJson modifiers.optional)

end FromModifiers

namespace FromEvent

/-- Reads an input. -/
def ofJson? (value : Json) : Option FromEvent := do
  let fields ← value.record? ["key_code", "modifiers"]
  return {
    key := ← fields.field? "key_code" Key.ofJson?
    modifiers := ←
      fields.fieldOr? "modifiers" (Json.optional? FromModifiers.ofJson?) none }

/-- Writes an input. -/
def toJson (input : FromEvent) : Json :=
  .obj (("key_code", input.key.toJson) ::
    (input.modifiers.map fun modifiers => ("modifiers", modifiers.toJson)).toList)

end FromEvent

namespace Manipulator

/-- The members that a manipulator has a field for, in the order of writing. -/
def fieldNames : List String :=
  ["type", "description", "from", "to", "to_if_alone", "to_after_key_up", "conditions"]

/-- Reads the type of a manipulator; there is one. -/
def isBasic? (value : Json) : Option Unit :=
  if value.variant? = some "basic" then some () else none

/-- Reads a manipulator. -/
def ofJson? (value : Json) : Option Manipulator := do
  let (fields, extra) ← value.openRecord? fieldNames
  fields.fieldOr? "type" isBasic? ()
  let events (name : String) :=
    fields.fieldOr? name (Json.list? fun value => some (Event.ofJson value)) []
  return {
    description := ← fields.fieldOr? "description" (Json.optional? Json.text?) none
    from_ := ← fields.field? "from" FromEvent.ofJson?
    onPress := ← events "to"
    ifAlone := ← events "to_if_alone"
    onRelease := ← events "to_after_key_up"
    conditions := ← fields.fieldOr? "conditions" (Json.list? Condition.ofJson?) []
    extra := extra }

/-- Writes a manipulator. -/
def toJson (manipulator : Manipulator) : Json :=
  .obj ([("type", .str "basic")] ++
    (manipulator.description.map fun text => ("description", Json.str text)).toList ++
    [("from", manipulator.from_.toJson)] ++
    listMember "to" Event.toJson manipulator.onPress ++
    listMember "to_if_alone" Event.toJson manipulator.ifAlone ++
    listMember "to_after_key_up" Event.toJson manipulator.onRelease ++
    listMember "conditions" Condition.toJson manipulator.conditions ++
    manipulator.extra)

end Manipulator

namespace Rule

/-- Reads a rule. -/
def ofJson? (value : Json) : Option Rule := do
  let fields ← value.record? ["description", "manipulators"]
  return {
    description := ← fields.field? "description" Json.text?
    manipulators := ← fields.field? "manipulators" (Json.list? Manipulator.ofJson?) }

/-- Writes a rule. -/
def toJson (rule : Rule) : Json :=
  .obj [("description", .str rule.description),
    ("manipulators", .arr (rule.manipulators.map Manipulator.toJson))]

end Rule

end KeyLayers
