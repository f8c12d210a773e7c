import KeyLayers.Conflict
import KeyLayers.Document
import KeyLayers.Validation

/-!
# Reports on a document

A document is examined before it is written.  An error keeps it from being
written: a variable that stays set after its key has been released, an event
that the engine would ignore, or manipulators of which only the first can fire.
Something that is merely empty is a warning.
-/

namespace KeyLayers

/-- What can be wrong with a document. -/
inductive Problem where
  | noProfiles
  | emptyRule
  /-- A variable is set to 1 on key-down and not reset on key-up. -/
  | heldVariable (name : String)
  | invalidEvent (defect : Defect)
  /-- Manipulators of one profile conflict. -/
  | conflict (profile : String) (conflict : Conflict)

/-- How serious a problem is. -/
inductive Severity where
  /-- The document is not written. -/
  | error
  /-- The document is written all the same. -/
  | warning
deriving DecidableEq, Repr

/-- A problem together with the rule it was found in. -/
structure Issue where
  /-- The name of the rule; empty if the problem is with the whole document. -/
  rule : String
  problem : Problem

namespace Problem

/-- How serious a problem is. -/
def severity : Problem → Severity
  | noProfiles | emptyRule => .warning
  | heldVariable _ | invalidEvent _ | conflict _ _ => .error

/-- The problem in words. -/
def message : Problem → String
  | noProfiles => "Document has no profiles"
  | emptyRule => "Rule has no manipulators"
  | heldVariable name => s!"Variable '{name}' is set to 1 but never reset on key-up"
  | invalidEvent defect => s!"Invalid event: {defect.message}"
  | conflict profile shared =>
      let count := shared.manipulators.length
      let key := shared.trigger.from_.key.name
      let conditions :=
        String.intercalate " && " (shared.trigger.conditions.map Condition.display)
      let rules := String.intercalate ", " (shared.manipulators.map Located.rule)
      s!"Profile '{profile}': {count} manipulators for '{key}' when [{conditions}] ({rules})"

/-- What the author can do about it. -/
def suggestion? : Problem → Option String
  | noProfiles | invalidEvent _ => none
  | emptyRule => some "Remove the rule or add a manipulator"
  | heldVariable name => some s!"Set '{name}' to 0 in to_after_key_up of the same manipulator"
  | conflict _ _ => some "Only the first one can ever fire"

/-- The defect that a problem is due to. -/
def defect? : Problem → Option Defect
  | invalidEvent defect => some defect
  | _ => none

end Problem

namespace Manipulator

/-- The variable that an event sets to 1 for good. -/
def heldBy? : Event → Option String
  | .setVariable assignment _ =>
      if assignment.value = 1 ∧ assignment.keyUpValue ≠ some 0 then some assignment.name
      else none
  | _ => none

/-- The variables that are set to 1 on key-down and not reset on key-up. -/
def heldVariables (manipulator : Manipulator) : List String :=
  (manipulator.onPress.filterMap heldBy?).filter fun name =>
    !(manipulator.setsOnRelease 0).contains name

/-- The problems of a manipulator on its own. -/
def problems (manipulator : Manipulator) : List Problem :=
  manipulator.heldVariables.map .heldVariable ++
    match checkEvents manipulator.events with
    | .ok () => []
    | .error defect => [.invalidEvent defect]

end Manipulator

/-- The problems of a rule on its own. -/
def Rule.problems (rule : Rule) : List Problem :=
  (if rule.manipulators.isEmpty then [.emptyRule] else []) ++
    rule.manipulators.flatMap Manipulator.problems

/-- The issue of a conflict, which counts for the rule of its first manipulator. -/
def Conflict.issue (profile : String) (conflict : Conflict) : Issue :=
  ⟨(conflict.manipulators.head?.map Located.rule).getD "", .conflict profile conflict⟩

/-- The issues of a profile: those of each rule, then the conflicts. -/
def Profile.issues (profile : Profile) : List Issue :=
  profile.rules.flatMap (fun rule => rule.problems.map (⟨rule.description, ·⟩)) ++
    (Conflict.among (Located.ofRules profile.rules)).map (Conflict.issue profile.name)

namespace Document

/-- Every issue of a document. -/
def issues (document : Document) : List Issue :=
  (if document.profiles.isEmpty then [⟨"", .noProfiles⟩] else []) ++
    document.profiles.flatMap Profile.issues

/-- The issues that keep a document from being written. -/
def errors (document : Document) : List Issue :=
  document.issues.filter (·.problem.severity == .error)

/-- The issues that are only reported. -/
def warnings (document : Document) : List Issue :=
  document.issues.filter (·.problem.severity == .warning)

end Document

end KeyLayers
