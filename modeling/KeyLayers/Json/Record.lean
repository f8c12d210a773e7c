import KeyLayers.Json.Value

/-!
# Records in JSON

A record is an object whose known members each occur at most once, or an array
of its fields in order, of which the last ones may be missing.  Reading a field
is then a look-up.  `Json.record?` gives the fields of a record that ignores
other members, `Json.closedRecord?` refuses them, and `Json.openRecord?` keeps
them, settled, in their order.
-/

namespace KeyLayers.Json

/-! ## Plain values -/

/-- The text of a string. -/
def text? : Json → Option String
  | .str text => some text
  | _ => none

/-- The truth value of a boolean. -/
def bool? : Json → Option Bool
  | .bool value => some value
  | _ => none

/-- The value of an integer that fits into a signed 64-bit word. -/
def int? : Json → Option Int
  | .int value => if Word.isSigned value then some value else none
  | _ => none

/-- The items of an array, each read in the same way. -/
def list? {α : Type} (read : Json → Option α) : Json → Option (List α)
  | .arr items => items.mapM read
  | _ => none

/-- A value that may be `null`. -/
def optional? {α : Type} (read : Json → Option α) : Json → Option (Option α)
  | .null => some none
  | value => (read value).map some

/-- A name standing alone, or as the one member of an object with value `null`. -/
def variant? : Json → Option String
  | .str name => some name
  | .obj [(name, .null)] => some name
  | _ => none

/-! ## Fields -/

/-- The members among the given names, if none of them is repeated. -/
def known? (names : List String) (members : List (String × Json)) :
    Option (Members Json) :=
  let known := members.filter fun member => names.contains member.1
  if (Members.names known).Nodup then some known else none

/-- The members that have none of the given names. -/
def others (names : List String) (members : List (String × Json)) :
    List (String × Json) :=
  members.filter fun member => !names.contains member.1

/-- The fields of a record that ignores other members. -/
def record? (names : List String) : Json → Option (Members Json)
  | .obj members => known? names members
  | .arr items => if items.length ≤ names.length then some (names.zip items) else none
  | _ => none

/-- The fields of a record that refuses other members. -/
def closedRecord? (names : List String) : Json → Option (Members Json)
  | .obj members => if (others names members).isEmpty then known? names members else none
  | .arr items => if items.length ≤ names.length then some (names.zip items) else none
  | _ => none

/-- The fields of a record that keeps other members, and those members. -/
def openRecord? (names : List String) : Json → Option (Members Json × Members Json)
  | .obj members =>
      (known? names members).map fun known =>
        (known, settleObject (others names members))
  | _ => none

end KeyLayers.Json
