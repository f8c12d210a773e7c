import KeyLayers.Environment
import KeyLayers.Json.Shape
import KeyLayers.Spec.Error
import KeyLayers.Toml.Text

/-!
# Sections of a spec file

A spec file has a fixed set of sections with fixed fields, and refuses all
others.  A section may also be written as an array of its fields in order.  The
tables of layers are kept as they are; what they mean is decided later.
-/

namespace KeyLayers

/-- Where the document goes. -/
structure OutputSection where
  path : Option String := none
  keepBackups : Option Nat := none

/-- The leading key. -/
structure HyperSection where
  key : String
  variableName : String := "hyper"
  reset : List String := []

/-- How the layers are compiled. -/
structure CompileSection where
  base : Option String := none
  label : Option String := none
  /-- Patterns of the applications in which no layer is used. -/
  excludeApps : List String := []

/-- A profile, with entries that are laid over those of all profiles. -/
structure ProfileSection where
  name : String
  selected : Option Bool := none
  layers : Members Toml := []

/-- The content of a spec file. -/
structure Spec where
  output : OutputSection := {}
  /-- Settings of the engine, passed through. -/
  global : Members Json := []
  hyper : Option HyperSection := none
  compile : CompileSection := {}
  /-- Rules that are passed through, before those of the layers. -/
  rules : List Rule := []
  layers : Members Toml := []
  definitions : Members Toml := []
  profiles : List ProfileSection := []

/-! ## Values -/

namespace Toml

/-- The text of a string. -/
def text? : Toml → Option String
  | .str text => some text
  | _ => none

/-- The truth value of a boolean. -/
def bool? : Toml → Option Bool
  | .bool value => some value
  | _ => none

/-- A count that fits into an unsigned 64-bit word. -/
def count? : Toml → Option Nat
  | .int value => if Word.isUnsigned value then some value.toNat else none
  | _ => none

/-- The items of an array, each read in the same way. -/
def list? {α : Type} (read : Toml → Option α) : Toml → Option (List α)
  | .array items => items.mapM read
  | _ => none

/--
The fields of a section; in an array a number of them have to be present, and
further items do not count.
-/
def section? (names : List String) (required : Nat) : Toml → Option (Members Toml)
  | .table members =>
      if members.all fun member => names.contains member.1 then some members else none
  | .array items => if required ≤ items.length then some (names.zip items) else none
  | _ => none

/-- A field that may be missing. -/
def optional? {α : Type} (fields : Members Toml) (name : String) (read : Toml → Option α) :
    Option (Option α) :=
  fields.fieldOr? name (fun value => (read value).map some) none

/-- The members of a table whose integers all fit into signed words. -/
def layers? (value : Toml) : Option (Members Toml) :=
  if value.isPlain then value.members? else none

end Toml

/-! ## Sections -/

/-- Reads the section of the output. -/
def OutputSection.ofToml? (value : Toml) : Option OutputSection := do
  let fields ← value.section? ["path", "keep_backups"] 2
  return {
    path := ← Toml.optional? fields "path" Toml.text?
    keepBackups := ← Toml.optional? fields "keep_backups" Toml.count? }

/-- Reads the section of the leading key. -/
def HyperSection.ofToml? (value : Toml) : Option HyperSection := do
  let fields ← value.section? ["key", "variable", "reset"] 1
  return {
    key := ← fields.field? "key" Toml.text?
    variableName := ← fields.fieldOr? "variable" Toml.text? "hyper"
    reset := ← fields.fieldOr? "reset" (Toml.list? Toml.text?) [] }

/-- Reads the section of the compilation. -/
def CompileSection.ofToml? (value : Toml) : Option CompileSection := do
  let fields ← value.section? ["variable_prefix", "label", "exclude_apps"] 2
  return {
    base := ← Toml.optional? fields "variable_prefix" Toml.text?
    label := ← Toml.optional? fields "label" Toml.text?
    excludeApps := ← fields.fieldOr? "exclude_apps" (Toml.list? Toml.text?) [] }

/-- Reads a profile. -/
def ProfileSection.ofToml? (value : Toml) : Option ProfileSection := do
  let fields ← value.section? ["name", "selected", "layers"] 1
  return {
    name := ← fields.field? "name" Toml.text?
    selected := ← Toml.optional? fields "selected" Toml.bool?
    layers := ← fields.fieldOr? "layers" Toml.layers? [] }

namespace Spec

/-- The records of a rule that may be written as arrays. -/
def ruleShape : Json.Shape :=
  .record false [("description", .whole), ("manipulators", .list Document.manipulatorShape)]

/-- Reads a rule that is passed through. -/
def ruleOfToml? (value : Toml) : Option Rule :=
  if value.isWide then Rule.ofJson? (value.toJson.fit ruleShape) else none

/-- Reads the settings that are passed through. -/
def globalOfToml? (value : Toml) : Option (Members Json) :=
  if value.isWide then Document.globalOfJson? value.toJson else none

/-- The names of the sections. -/
def sectionNames : List String :=
  ["output", "global", "hyper", "compile", "rules", "layers", "definitions", "profiles"]

/-- Reads the sections of a file. -/
def ofToml? (members : Members Toml) : Option Spec := do
  let fields ← Toml.section? sectionNames 0 (.table members)
  return {
    output := ← fields.fieldOr? "output" OutputSection.ofToml? {}
    global := ← fields.fieldOr? "global" globalOfToml? []
    hyper := ← Toml.optional? fields "hyper" HyperSection.ofToml?
    compile := ← fields.fieldOr? "compile" CompileSection.ofToml? {}
    rules := ← fields.fieldOr? "rules" (Toml.list? ruleOfToml?) []
    layers := ← fields.fieldOr? "layers" Toml.layers? []
    definitions := ← fields.fieldOr? "definitions" Toml.layers? []
    profiles := ← fields.fieldOr? "profiles" (Toml.list? ProfileSection.ofToml?) [] }

/-- The table of a text that is read without knowing its sections. -/
def plainTable (text : String) : Except ReadError (Members Toml) :=
  match Toml.ofText? text with
  | none => .error .syntaxError
  | some members => if (Toml.table members).isPlain then .ok members else .error .syntaxError

/-- Reads a spec file. -/
def ofText (text : String) : Except ReadError Spec :=
  match (Toml.ofText? text).bind ofToml? with
  | some spec => .ok spec
  | none => (plainTable text).bind fun _ => .error .shapeError

/-- A file without a byte order mark is read through its statements. -/
theorem ofText_of_statements {text : String} {statements : List Toml.Statement} {spec : Spec}
    (read : Toml.statements? text.toList = some statements)
    (unmarked : text.toList.head? ≠ some '\ufeff')
    (built : (Toml.ofStatements? statements).bind ofToml? = some spec) :
    ofText text = .ok spec := by
  have table : Toml.ofText? text = Toml.ofStatements? statements := by
    rw [Toml.ofText?]
    split
    · rename_i marked
      rw [marked] at unmarked
      exact absurd rfl unmarked
    · rw [read]
      rfl
  rw [ofText, table, built]

/-! ## Settings of the output -/

/-- Where the document goes if nothing else is said. -/
def defaultOutputPath : String := "~/.config/karabiner/karabiner.json"

/-- How many backups are kept if nothing else is said. -/
def defaultKeepBackups : Nat := 10

/-- Where the document goes; a path that is given explicitly wins. -/
def outputPath (spec : Spec) (environment : Environment) (explicit : Option String) : String :=
  environment.expand (explicit.getD (spec.output.path.getD defaultOutputPath))

/-- How many backups are kept. -/
def keepBackups (spec : Spec) : Nat :=
  spec.output.keepBackups.getD defaultKeepBackups

end Spec

end KeyLayers
