import KeyLayers.Manipulator

/-!
# Conflicts

Two manipulators conflict when they listen for the same input under the same
set of conditions: the engine only ever fires the first one.  Conditions are
brought into their sorted form first, so their order and repetition make no
difference.

`Conflict.among` lists the conflicts among some manipulators, ordered by key and
then by conditions, each with its manipulators in the order given.
-/

namespace KeyLayers

/-- An input together with the sorted set of conditions under which it counts. -/
structure Trigger where
  from_ : FromEvent
  conditions : List Condition
deriving DecidableEq

/-- A manipulator with the name of its rule. -/
structure Located where
  rule : String
  manipulator : Manipulator
deriving DecidableEq

/-- The manipulators that share one trigger, of which there are at least two. -/
structure Conflict where
  trigger : Trigger
  manipulators : List Located

/-- The trigger of a manipulator. -/
def Trigger.of (manipulator : Manipulator) : Trigger :=
  ⟨manipulator.from_, Condition.sortedSet manipulator.conditions⟩

/-- Whether a trigger comes no later than another one: by key, then by conditions. -/
def Trigger.le (left right : Trigger) : Bool :=
  ((Ord.compare left.from_.key.name right.from_.key.name).then
    (List.compareLex Condition.compare left.conditions right.conditions)).isLE

namespace Located

/-- The trigger of a located manipulator. -/
def trigger (located : Located) : Trigger :=
  Trigger.of located.manipulator

/-- The manipulators of some rules, in order. -/
def ofRules (rules : List Rule) : List Located :=
  rules.flatMap fun rule => rule.manipulators.map (⟨rule.description, ·⟩)

end Located

namespace Conflict

/-- The manipulators that have a given trigger. -/
def sharing (manipulators : List Located) (trigger : Trigger) : List Located :=
  manipulators.filter (·.trigger == trigger)

/-- Whether at least two manipulators have a given trigger. -/
def isShared (manipulators : List Located) (trigger : Trigger) : Bool :=
  1 < (sharing manipulators trigger).length

/-- The triggers of some manipulators, each one once. -/
def triggers (manipulators : List Located) : List Trigger :=
  (manipulators.map Located.trigger).eraseDups

/-- Every conflict among some manipulators. -/
def among (manipulators : List Located) : List Conflict :=
  let shared := (triggers manipulators).filter (isShared manipulators)
  (shared.mergeSort Trigger.le).map fun trigger =>
    ⟨trigger, sharing manipulators trigger⟩

end Conflict

end KeyLayers
