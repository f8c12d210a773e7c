import KeyLayers.Conflict

/-!
# Detecting conflicts as manipulators are added

A detector files every manipulator under its trigger when it is added, so that a
trigger can be looked up at any time.  What it reports does not depend on how
its groups are ordered, except between triggers of one key and one set of
conditions: `Detector.report` takes the groups in any order.
-/

namespace KeyLayers

/-- The manipulators that share a trigger, next to the trigger. -/
abbrev TriggerGroup := Trigger × List Located

/-- The manipulators that have been added, in groups of one trigger each. -/
structure Detector where
  groups : List TriggerGroup := []

namespace Detector

/-- Puts a manipulator at the end of the group of its trigger, or into a new group. -/
def file (located : Located) : List TriggerGroup → List TriggerGroup
  | [] => [(located.trigger, [located])]
  | (trigger, group) :: rest =>
      if trigger = located.trigger then (trigger, group ++ [located]) :: rest
      else (trigger, group) :: file located rest

/-- Adds a manipulator of a rule. -/
def add (detector : Detector) (rule : String) (manipulator : Manipulator) : Detector :=
  ⟨file ⟨rule, manipulator⟩ detector.groups⟩

/-- Adds every manipulator of a rule. -/
def addRule (detector : Detector) (rule : Rule) : Detector :=
  rule.manipulators.foldl (fun detector => detector.add rule.description) detector

/-- A detector with every manipulator of some rules. -/
def ofRules (rules : List Rule) : Detector :=
  rules.foldl addRule {}

/-- Whether a group has at least two manipulators. -/
def isConflict (group : TriggerGroup) : Bool :=
  1 < group.2.length

/-- The conflicts among some groups, ordered by key and then by conditions. -/
def report (groups : List TriggerGroup) : List Conflict :=
  ((groups.filter isConflict).map fun group => ⟨group.1, group.2⟩).mergeSort
    fun left right => Trigger.le left.trigger right.trigger

/-- Every conflict among the manipulators that have been added. -/
def conflicts (detector : Detector) : List Conflict :=
  report detector.groups

/-- Whether at least two of the manipulators have a given trigger. -/
def hasConflict (detector : Detector) (trigger : Trigger) : Bool :=
  (detector.groups.lookup trigger).any (1 < ·.length)

/-- How many manipulators have been added. -/
def total (detector : Detector) : Nat :=
  (detector.groups.flatMap Prod.snd).length

end Detector

end KeyLayers
