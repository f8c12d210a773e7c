import KeyLayers.Json.Value

/-!
# TOML values

Tables keep their members in the order of the file.  A date or a time is held
as its normal text.  An integer may have any size here; a document whose
integers all fit into signed 64-bit words is *plain*, and where a wider one is
accepted is decided by the reader of the document.
-/

namespace KeyLayers

/-- A value of a TOML document. -/
inductive Toml where
  | str (text : String)
  | int (value : Int)
  | float (value : Binary64)
  | bool (value : Bool)
  | datetime (text : String)
  | array (items : List Toml)
  | table (members : List (String × Toml))
deriving Inhabited

namespace Toml

/-- The name of the kind of a value. -/
def kind : Toml → String
  | .str _ => "string"
  | .int _ => "integer"
  | .float _ => "float"
  | .bool _ => "boolean"
  | .datetime _ => "datetime"
  | .array _ => "array"
  | .table _ => "table"

/-- The member that stands for a date or a time where JSON is expected. -/
def datetimeName : String := "$__toml_private_datetime"

mutual

/-- The value as JSON. -/
def toJson : Toml → Json
  | .str text => .str text
  | .int value => .int value
  | .float value => .float value
  | .bool value => .bool value
  | .datetime text => .obj [(datetimeName, .str text)]
  | .array items => .arr (itemsToJson items)
  | .table members => .obj (membersToJson members)

/-- The items of an array as JSON. -/
def itemsToJson : List Toml → List Json
  | [] => []
  | item :: rest => toJson item :: itemsToJson rest

/-- The members of a table as JSON. -/
def membersToJson : List (String × Toml) → List (String × Json)
  | [] => []
  | (name, value) :: rest => (name, toJson value) :: membersToJson rest

end

mutual

/-- Whether every integer of a value satisfies a condition. -/
def allInts (fits : Int → Bool) : Toml → Bool
  | .int value => fits value
  | .array items => allItemInts fits items
  | .table members => allMemberInts fits members
  | _ => true

/-- Whether every integer of every item does. -/
def allItemInts (fits : Int → Bool) : List Toml → Bool
  | [] => true
  | item :: rest => allInts fits item && allItemInts fits rest

/-- Whether every integer of every member does. -/
def allMemberInts (fits : Int → Bool) : List (String × Toml) → Bool
  | [] => true
  | (_, value) :: rest => allInts fits value && allMemberInts fits rest

end

/-- Whether every integer fits into a signed 64-bit word. -/
def isPlain (value : Toml) : Bool :=
  value.allInts Word.isSigned

/-- Whether every integer fits into a signed or an unsigned 64-bit word. -/
def isWide (value : Toml) : Bool :=
  value.allInts fun n => Word.isSigned n || Word.isUnsigned n

/-- The members of a value that can be read as a table. -/
def members? : Toml → Option (Members Toml)
  | .table members => some members
  | .datetime text => some [(datetimeName, .str text)]
  | _ => none

end Toml

end KeyLayers
