import KeyLayers.Condition
import KeyLayers.Layer
import KeyLayers.Pattern.Syntax

/-!
# Validation

The engine ignores a malformed entry without a word, so everything that ends up
in its document as the author wrote it is checked before: arguments of shell
commands, patterns, names of variables, and the key codes of raw events.

A list of things is valid exactly when each of them is (`checkAll_eq_ok_iff`).
-/

namespace KeyLayers

/-- What an argument is given for. -/
inductive Subject where
  | shellCommand
  | uri
  | applicationName
  | inputSourceMatcher
  | rawBinding
deriving DecidableEq, Repr

/-- What is wrong with something that an author wrote. -/
inductive Defect where
  | emptyArgument (subject : Subject)
  | argumentTooLong (octets : Nat)
  | controlCharacters (argument : String)
  | invalidPattern (pattern : String) (fault : Pattern.Fault)
  | invalidVariableName (name : String)
  | unknownName (error : NameError)
deriving DecidableEq, Repr

/-- The subject in words. -/
def Subject.name : Subject → String
  | .shellCommand => "shell command"
  | .uri => "URI"
  | .applicationName => "application name"
  | .inputSourceMatcher => "input source matcher"
  | .rawBinding => "raw binding"

/-- The subjects of free texts. -/
def Subject.all : List Subject :=
  [.shellCommand, .uri, .applicationName, .inputSourceMatcher, .rawBinding]

/-- The greatest length of an argument, in octets of UTF-8. -/
def greatestLength : Nat := 1000

namespace Defect

/-- What an author reads about a defect. -/
def message : Defect → String
  | emptyArgument subject => s!"Empty {subject.name}"
  | argumentTooLong octets =>
      s!"Argument too long: {octets} characters (max {greatestLength})"
  | controlCharacters argument => s!"Control characters detected in '{argument}'"
  | invalidPattern pattern fault => s!"Invalid pattern '{pattern}': {fault.message}"
  | invalidVariableName name => s!"Invalid variable name '{name}'"
  | unknownName error => error.message

/-- The fault of the pattern that a defect is about. -/
def fault? : Defect → Option Pattern.Fault
  | invalidPattern _ fault => some fault
  | _ => none

end Defect

/-- Checks each item, and stops at the first defect. -/
def checkAll {α : Type} (check : α → Except Defect Unit) : List α → Except Defect Unit
  | [] => .ok ()
  | item :: rest =>
      match check item with
      | .ok () => checkAll check rest
      | .error defect => .error defect

theorem checkAll_eq_ok_iff {α : Type} {check : α → Except Defect Unit} {items : List α} :
    checkAll check items = .ok () ↔ ∀ item ∈ items, check item = .ok () := by
  induction items with
  | nil => simp [checkAll]
  | cons item rest ih =>
      unfold checkAll
      split <;> simp_all

/-- Checks a free text: a command, a target or the name of an application. -/
def checkArgument (subject : Subject) (argument : String) : Except Defect Unit :=
  if (Text.trim argument).isEmpty then .error (.emptyArgument subject)
  else if greatestLength < argument.utf8ByteSize then
    .error (.argumentTooLong argument.utf8ByteSize)
  else if argument.toList.any Text.isControl then .error (.controlCharacters argument)
  else .ok ()

/-- Checks a pattern. -/
def checkPattern (pattern : String) : Except Defect Unit :=
  match Pattern.fault? pattern with
  | some fault => .error (.invalidPattern pattern fault)
  | none => .ok ()

/-- Checks the name of a variable: it is not empty and has no blanks. -/
def checkVariableName (name : String) : Except Defect Unit :=
  if name.isEmpty || name.toList.any (fun c => Text.isBlank c || Text.isControl c) then
    .error (.invalidVariableName name)
  else .ok ()

/-- Checks the patterns of a selector. -/
def InputSource.check (source : InputSource) : Except Defect Unit :=
  checkAll checkPattern source.patterns

/-- Checks an action before it is encoded. -/
def Action.check : Action → Except Defect Unit
  | .sendChord _ => .ok ()
  | .runShell command => checkArgument .shellCommand command
  | .openTarget target => checkArgument .uri target
  | .launchApp name => checkArgument .applicationName name
  | .selectInput source =>
      if source.patterns.isEmpty then .error (.emptyArgument .inputSourceMatcher)
      else source.check

/-- Checks the key code of a value that is kept as it is. -/
def checkKeyCode : Json → Except Defect Unit
  | .obj members =>
      match Members.get? members "key_code" with
      | some (.str name) =>
          match Key.parse name with
          | .ok _ => .ok ()
          | .error error => .error (.unknownName error)
      | _ => .ok ()
  | _ => .ok ()

/-- Checks an event that the engine gets as it is. -/
def Event.check : Event → Except Defect Unit
  | .setVariable assignment _ => checkVariableName assignment.name
  | .shellCommand command _ => checkArgument .shellCommand command
  | .selectInputSource source _ => source.check
  | .key _ => .ok ()
  | .raw value => checkKeyCode value

/-- Checks events in order. -/
def checkEvents (events : List Event) : Except Defect Unit :=
  checkAll Event.check events

/-- Checks the events of a raw binding, of which there is at least one. -/
def RawBinding.check (binding : RawBinding) : Except Defect Unit :=
  if binding.events.isEmpty then .error (.emptyArgument .rawBinding)
  else checkEvents binding.events

/-- Checks the names and patterns of a condition. -/
def Condition.check : Condition → Except Defect Unit
  | .variableIf name _ | .variableUnless name _ => checkVariableName name
  | .frontmostIf patterns | .frontmostUnless patterns => checkAll checkPattern patterns

end KeyLayers
