import KeyLayers.Decimal.Layout
import KeyLayers.Json.Value

/-!
# Writing JSON

A value is written either on one line without spaces, or over several lines
with an indentation of two spaces.  In both forms the members keep their order,
an empty array or object is closed at once, and a string is escaped only where
the grammar demands it.
-/

namespace KeyLayers.Json

/--
Numbers from a hundred thousandth up to below ten to the sixteenth are written
positionally.
-/
def numberLayout : Decimal.Layout := ⟨-5, 15⟩

/-- One character inside a string. -/
def escapedChar (c : Char) : List Char :=
  if c == '"' then ['\\', '"']
  else if c == '\\' then ['\\', '\\']
  else if c == '\x08' then ['\\', 'b']
  else if c == '\x09' then ['\\', 't']
  else if c == '\x0a' then ['\\', 'n']
  else if c == '\x0c' then ['\\', 'f']
  else if c == '\x0d' then ['\\', 'r']
  else if c < ' ' then
    ['\\', 'u', '0', '0', Nat.digitChar (c.toNat / 16), Nat.digitChar (c.toNat % 16)]
  else [c]

/-- A string with its quotes. -/
def writeString (text : String) : List Char :=
  '"' :: text.toList.flatMap escapedChar ++ ['"']

/-- An integer in decimal. -/
def writeInt : Int → List Char
  | .ofNat n => Nat.toDigits 10 n
  | .negSucc n => '-' :: Nat.toDigits 10 (n + 1)

/-- A floating-point number; one that no numeral denotes is written as `null`. -/
def writeFloat : Binary64 → List Char
  | .finite negative mantissa exponent =>
      numberLayout.writeFinite negative mantissa exponent
  | .infinite _ | .nan => ['n', 'u', 'l', 'l']

/-- A value that has no parts. -/
def writeScalar : Json → List Char
  | .null => ['n', 'u', 'l', 'l']
  | .bool true => ['t', 'r', 'u', 'e']
  | .bool false => ['f', 'a', 'l', 's', 'e']
  | .int value => writeInt value
  | .float value => writeFloat value
  | .str text => writeString text
  | .arr _ | .obj _ => []

/-- How the parts of a value are set apart. -/
inductive Spacing where
  /-- On one line. -/
  | tight
  /-- Each part on a line of its own, indented by two spaces per level. -/
  | lines

/-- What comes before a part at a level. -/
def Spacing.break (spacing : Spacing) (level : Nat) : List Char :=
  match spacing with
  | .tight => []
  | .lines => '\n' :: List.replicate (2 * level) ' '

/-- What comes between a name and its value. -/
def Spacing.colon : Spacing → List Char
  | .tight => [':']
  | .lines => [':', ' ']

mutual

/-- A value at a level of indentation. -/
def write (spacing : Spacing) (level : Nat) : Json → List Char
  | .arr [] => ['[', ']']
  | .arr (item :: rest) =>
      '[' :: spacing.break (level + 1) ++ write spacing (level + 1) item ++
        writeItems spacing (level + 1) rest ++ spacing.break level ++ [']']
  | .obj [] => ['\x7b', '\x7d']
  | .obj ((name, item) :: rest) =>
      '\x7b' :: spacing.break (level + 1) ++ writeString name ++ spacing.colon ++
        write spacing (level + 1) item ++ writeMembers spacing (level + 1) rest ++
        spacing.break level ++ ['\x7d']
  | scalar => writeScalar scalar

/-- The items after the first one. -/
def writeItems (spacing : Spacing) (level : Nat) : List Json → List Char
  | [] => []
  | item :: rest =>
      ',' :: spacing.break level ++ write spacing level item ++
        writeItems spacing level rest

/-- The members after the first one. -/
def writeMembers (spacing : Spacing) (level : Nat) : List (String × Json) → List Char
  | [] => []
  | (name, item) :: rest =>
      ',' :: spacing.break level ++ writeString name ++ spacing.colon ++
        write spacing level item ++ writeMembers spacing level rest

end

/-- A value on one line. -/
def compact (value : Json) : String :=
  String.ofList (write .tight 0 value)

/-- A value over several lines, ended by a line break. -/
def pretty (value : Json) : String :=
  String.ofList (write .lines 0 value ++ ['\n'])

end KeyLayers.Json
