import KeyLayers.Json.Record

/-!
# Conditions

A condition gates a manipulator: a variable has a value or has not, or the
frontmost application matches one of some patterns or none of them.  Conditions
are ordered by kind first and then field by field, texts by code points, so
that a set of conditions has one sorted form.
-/

namespace KeyLayers

/-- A gating predicate of a manipulator. -/
inductive Condition where
  | variableIf (name : String) (value : Int)
  | variableUnless (name : String) (value : Int)
  | frontmostIf (patterns : List String)
  | frontmostUnless (patterns : List String)
deriving DecidableEq, Repr

namespace Condition

/-- The text in which a condition is reported. -/
def display : Condition → String
  | variableIf name value => s!"{name} == {value}"
  | variableUnless name value => s!"{name} != {value}"
  | frontmostIf patterns => "frontmost in [" ++ String.intercalate ", " patterns ++ "]"
  | frontmostUnless patterns =>
      "frontmost not in [" ++ String.intercalate ", " patterns ++ "]"

/-! ## Order -/

/-- The place of a kind among the kinds. -/
def rank : Condition → Nat
  | variableIf _ _ => 0
  | variableUnless _ _ => 1
  | frontmostIf _ => 2
  | frontmostUnless _ => 3

/-- The variable that a condition is about, if it is about one. -/
def variableName : Condition → String
  | variableIf name _ | variableUnless name _ => name
  | frontmostIf _ | frontmostUnless _ => ""

/-- The value that a condition compares with, if it has one. -/
def comparedValue : Condition → Int
  | variableIf _ value | variableUnless _ value => value
  | frontmostIf _ | frontmostUnless _ => 0

/-- The patterns of a condition on the frontmost application. -/
def patterns : Condition → List String
  | variableIf _ _ | variableUnless _ _ => []
  | frontmostIf patterns | frontmostUnless patterns => patterns

/-- Compares two conditions by kind, name, value and patterns. -/
def compare (left right : Condition) : Ordering :=
  (Ord.compare left.rank right.rank).then <|
  (Ord.compare left.variableName right.variableName).then <|
  (Ord.compare left.comparedValue right.comparedValue).then <|
  Ord.compare left.patterns right.patterns

/-- Whether a condition comes no later than another one. -/
def le (left right : Condition) : Bool :=
  (left.compare right).isLE

/-- Conditions in order, repetitions kept. -/
def sort (conditions : List Condition) : List Condition :=
  conditions.mergeSort le

/-- The sorted form of a set of conditions. -/
def sortedSet (conditions : List Condition) : List Condition :=
  (sort conditions).eraseReps

/-! ## JSON -/

/-- The tag of each kind. -/
def tag : Condition → String
  | variableIf _ _ => "variable_if"
  | variableUnless _ _ => "variable_unless"
  | frontmostIf _ => "frontmost_application_if"
  | frontmostUnless _ => "frontmost_application_unless"

/-- Reads the fields of a condition with a given tag. -/
def ofTagged? (tag : String) (value : Json) : Option Condition :=
  let variableFields (make : String → Int → Condition) : Option Condition := do
    let fields ← value.record? ["name", "value"]
    return make (← fields.field? "name" Json.text?)
      (← fields.field? "value" Json.int?)
  let frontmostFields (make : List String → Condition) : Option Condition := do
    let fields ← value.record? ["bundle_identifiers"]
    return make (← fields.field? "bundle_identifiers" (Json.list? Json.text?))
  match tag with
  | "variable_if" => variableFields variableIf
  | "variable_unless" => variableFields variableUnless
  | "frontmost_application_if" => frontmostFields frontmostIf
  | "frontmost_application_unless" => frontmostFields frontmostUnless
  | _ => none

/-- Reads a condition: an object with a tag, or an array that starts with it. -/
def ofJson? : Json → Option Condition
  | .obj members => do
      let fields ← Json.known? ["type"] members
      let tag ← fields.field? "type" Json.text?
      ofTagged? tag (.obj (Json.others ["type"] members))
  | .arr (.str tag :: fields) => ofTagged? tag (.arr fields)
  | _ => none

/-- Writes a condition with its tag first. -/
def toJson (condition : Condition) : Json :=
  let fields : List (String × Json) :=
    match condition with
    | variableIf name value | variableUnless name value =>
        [("name", .str name), ("value", .int value)]
    | frontmostIf patterns | frontmostUnless patterns =>
        [("bundle_identifiers", .arr (patterns.map .str))]
  .obj (("type", .str condition.tag) :: fields)

end Condition

end KeyLayers
