import KeyLayers.Event

/-!
# Events in JSON

Reading an event tries a variable assignment, a shell command, an input source
and a key press, in this order; a value that is none of them becomes a raw
event and is settled.  Writing omits the fields that have their default and
puts the other members after the fields.
-/

namespace KeyLayers

/-- Reads the name of a key, in any spelling. -/
def Key.ofJson? (value : Json) : Option Key :=
  value.text?.bind fun name => (Key.parse name).toOption

/-- Reads the exact name of a modifier. -/
def Modifier.ofJson? (value : Json) : Option Modifier :=
  value.variant?.bind Modifier.ofName?

/-- Writes the name of a key. -/
def Key.toJson (key : Key) : Json :=
  .str key.name

/-- Writes the name of a modifier. -/
def Modifier.toJson (modifier : Modifier) : Json :=
  .str modifier.name

namespace Assignment

/-- Reads an assignment, which has no members but its fields. -/
def ofJson? (value : Json) : Option Assignment := do
  let fields ← value.closedRecord? ["name", "value", "key_up_value"]
  return {
    name := ← fields.field? "name" Json.text?
    value := ← fields.field? "value" Json.int?
    keyUpValue := ← fields.fieldOr? "key_up_value" (Json.optional? Json.int?) none }

/-- Writes an assignment. -/
def toJson (assignment : Assignment) : Json :=
  .obj ([("name", .str assignment.name), ("value", .int assignment.value)] ++
    (assignment.keyUpValue.map fun value => ("key_up_value", Json.int value)).toList)

end Assignment

namespace InputSource

/-- Reads a selector. -/
def ofJson? (value : Json) : Option InputSource := do
  let fields ← value.record? ["input_source_id", "language", "input_mode_id"]
  let pattern (name : String) :=
    fields.fieldOr? name (Json.optional? Json.text?) none
  return {
    sourceId := ← pattern "input_source_id"
    language := ← pattern "language"
    mode := ← pattern "input_mode_id" }

/-- Writes the fields of a selector that are present. -/
def toJson (source : InputSource) : Json :=
  let member (name : String) (pattern : Option String) : List (String × Json) :=
    (pattern.map fun text => (name, Json.str text)).toList
  .obj (member "input_source_id" source.sourceId ++ member "language" source.language ++
    member "input_mode_id" source.mode)

end InputSource

namespace KeyPress

/-- Reads a key press. -/
def ofJson? (value : Json) : Option KeyPress := do
  let (fields, extra) ← value.openRecord? ["key_code", "modifiers", "lazy"]
  return {
    key := ← fields.field? "key_code" Key.ofJson?
    modifiers := ← fields.fieldOr? "modifiers" (Json.list? Modifier.ofJson?) []
    isLazy := ← fields.fieldOr? "lazy" Json.bool? false
    extra := extra }

/-- Writes a key press. -/
def toJson (press : KeyPress) : Json :=
  .obj ([("key_code", press.key.toJson)] ++
    (if press.modifiers.isEmpty then []
      else [("modifiers", .arr (press.modifiers.map Modifier.toJson))]) ++
    (if press.isLazy then [("lazy", .bool true)] else []) ++ press.extra)

end KeyPress

namespace Event

/-- Reads an event of a kind with one field of its own. -/
def ofField? {α : Type} (name : String) (read : Json → Option α)
    (make : α → Members Json → Event) (value : Json) : Option Event := do
  let (fields, extra) ← value.openRecord? [name]
  return make (← fields.field? name read) extra

/-- Reads an event; every value is one. -/
def ofJson (value : Json) : Event :=
  let typed :=
    ofField? "set_variable" Assignment.ofJson? .setVariable value <|>
    ofField? "shell_command" Json.text? .shellCommand value <|>
    ofField? "select_input_source" InputSource.ofJson? .selectInputSource value <|>
    (KeyPress.ofJson? value).map .key
  typed.getD (.raw value.settle)

/-- Writes an event. -/
def toJson : Event → Json
  | .setVariable assignment extra => .obj (("set_variable", assignment.toJson) :: extra)
  | .shellCommand command extra => .obj (("shell_command", .str command) :: extra)
  | .selectInputSource source extra =>
      .obj (("select_input_source", source.toJson) :: extra)
  | .key press => press.toJson
  | .raw value => value

end Event

end KeyLayers
