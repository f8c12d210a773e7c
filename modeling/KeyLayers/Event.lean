import KeyLayers.Chord
import KeyLayers.Json.Record

/-!
# Output events

An event is one thing that a manipulator makes the engine do.  The engine tells
the kinds of events apart by the members that are present, and so does
`Event.ofJson?`: it tries the kinds in a fixed order and keeps a value that is
none of them as it is.  Members that a kind has no field for are kept beside the
fields, in their order.
-/

namespace KeyLayers

/-- An assignment to a variable of the engine. -/
structure Assignment where
  name : String
  value : Int
  /-- What the engine assigns when the key that caused the event is released. -/
  keyUpValue : Option Int
deriving DecidableEq

/-- Which input source to select; each field that is present is a pattern. -/
structure InputSource where
  sourceId : Option String := none
  language : Option String := none
  mode : Option String := none
deriving DecidableEq

/-- A key press with modifiers. -/
structure KeyPress where
  key : Key
  modifiers : List Modifier
  isLazy : Bool
  extra : Members Json
deriving DecidableEq

/-- One output event. -/
inductive Event where
  | setVariable (assignment : Assignment) (extra : Members Json)
  | shellCommand (command : String) (extra : Members Json)
  | selectInputSource (source : InputSource) (extra : Members Json)
  | key (press : KeyPress)
  /-- A value that is none of the other kinds. -/
  | raw (value : Json)
deriving DecidableEq

namespace InputSource

/-- The patterns of a selector, in the order of its fields. -/
def patterns (source : InputSource) : List String :=
  [source.sourceId, source.language, source.mode].filterMap id

/-- The fields that are present, each with a short label. -/
def display (source : InputSource) : String :=
  let part (label : String) (pattern : Option String) : Option String :=
    pattern.map (label ++ "=" ++ ·)
  String.intercalate ", "
    ([part "id" source.sourceId, part "lang" source.language,
      part "mode" source.mode].filterMap id)

end InputSource

namespace Event

/-- Sets a variable. -/
def set (name : String) (value : Int) : Event :=
  .setVariable ⟨name, value, none⟩ []

/-- Runs a shell command. -/
def shell (command : String) : Event :=
  .shellCommand command []

/-- Selects an input source. -/
def select (source : InputSource) : Event :=
  .selectInputSource source []

/-- Presses a key with modifiers. -/
def chord (key : Key) (modifiers : List Modifier) : Event :=
  .key ⟨key, modifiers, false, []⟩

/-- Presses a key alone. -/
def press (key : Key) : Event :=
  chord key []

/-- The variable that an event sets to a value. -/
def variableSet? (value : Int) : Event → Option String
  | .setVariable assignment _ =>
      if assignment.value = value then some assignment.name else none
  | _ => none

/-- The name of the kind of an event. -/
def kind : Event → String
  | .setVariable _ _ => "SetVariable"
  | .shellCommand _ _ => "ShellCommand"
  | .selectInputSource _ _ => "SelectInputSource"
  | .key _ => "Key"
  | .raw _ => "Raw"

end Event

end KeyLayers
