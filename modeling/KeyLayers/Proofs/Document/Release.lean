import KeyLayers.Proofs.Document.Verdict
import KeyLayers.Proofs.Engine

/-!
# What a manipulator leaves behind

The engine runs the events of a press in order.  On the release it first assigns
the values that those events have for it, and then runs the events of the
release, also in order.

A document without errors sets every variable back to 0 on the release that a
press sets to 1, but only if the press does so with an event that was read as an
assignment, and the release may set the variable to 1 once more afterwards.
There is no third way in which a variable stays set (`Document.release_exact`).
-/

namespace KeyLayers

/-! ## Assignments in a row -/

/-- The variables after some assignments, one after the other. -/
def assign (assignments : List (String × Int)) (value : String → Int) : String → Int :=
  assignments.foldl (fun value assigned => Function.update value assigned.1 assigned.2) value

/-- What is assigned to a variable last. -/
def lastAssigned? (name : String) (assignments : List (String × Int)) : Option Int :=
  assignments.reverse.lookup name

variable {name : String} {value : String → Int}

theorem runEvents_eq_assign (events : List Event) (value : String → Int) :
    runEvents events value = assign (events.filterMap Event.assignment?) value := by
  rw [runEvents, assign, List.foldl_filterMap]
  congr
  funext value event
  rw [Event.run]
  cases event.assignment? <;> rfl

theorem assign_append (first second : List (String × Int)) (value : String → Int) :
    assign (first ++ second) value = assign second (assign first value) :=
  List.foldl_append

/-- A variable has the value assigned last, or the one from before. -/
theorem assign_apply (assignments : List (String × Int)) :
    assign assignments value name = (lastAssigned? name assignments).getD (value name) := by
  induction assignments using List.reverseRecOn with
  | nil => rfl
  | append_singleton earlier assigned ih =>
      rw [assign_append, lastAssigned?, List.reverse_concat, List.lookup_cons]
      by_cases same : name = assigned.1
      · subst same
        rw [beq_self_eq_true]
        exact Function.update_self ..
      · rw [beq_false_of_ne same]
        exact (Function.update_of_ne same ..).trans ih

theorem lastAssigned?_eq_none_iff {assignments : List (String × Int)} :
    lastAssigned? name assignments = none ↔ ∀ number, (name, number) ∉ assignments := by
  rw [lastAssigned?, List.lookup_eq_none_iff]
  simp only [List.mem_reverse, bne_iff_ne, Prod.forall]
  constructor
  · intro apart number member
    exact apart name number member rfl
  · rintro absent other number member rfl
    exact absent number member

/-! ## Events -/

namespace Event

/-- The value that the engine assigns on the release to the variable of an event. -/
def assignmentOnRelease? (event : Event) : Option (String × Int) :=
  match event.assignment?, event.toJson with
  | some (name, _), .obj members =>
      match Members.get? members "set_variable" with
      | some (.obj payload) =>
          match Members.get? payload "key_up_value" with
          | some (.int value) => some (name, value)
          | _ => none
      | _ => none
  | _, _ => none

/-- Whether an event assigns a variable. -/
def assigns (name : String) (event : Event) : Bool :=
  event.assignment?.any (name == ·.1)

/-- Whether an event was read as an assignment. -/
def IsAssignment (event : Event) : Prop :=
  ∃ assignment extra, event = .setVariable assignment extra

@[simp]
theorem assignment?_setVariable (assignment : Assignment) (extra : Members Json) :
    (setVariable assignment extra).assignment? = some (assignment.name, assignment.value) := by
  rcases assignment with ⟨name, value, _ | up⟩ <;> rfl

@[simp]
theorem assignmentOnRelease?_setVariable (assignment : Assignment) (extra : Members Json) :
    (setVariable assignment extra).assignmentOnRelease? =
      assignment.keyUpValue.map (assignment.name, ·) := by
  rcases assignment with ⟨name, value, _ | up⟩ <;> rfl

/-- What events assign to a variable last is what the last one does that assigns it. -/
theorem lastAssigned?_assignments (events : List Event) :
    lastAssigned? name (events.filterMap assignment?) =
      (events.reverse.find? (·.assigns name)).bind (·.assignment?.map Prod.snd) := by
  rw [lastAssigned?, ← List.filterMap_reverse]
  induction events.reverse with
  | nil => rfl
  | cons event earlier ih =>
      rw [List.find?_cons, assigns]
      cases found : event.assignment? with
      | none =>
          rw [List.filterMap_cons_none found]
          exact ih
      | some assigned =>
          rw [List.filterMap_cons_some found, List.lookup_cons, Option.any_some]
          cases name == assigned.1 with
          | false => exact ih
          | true => exact (congrArg (Option.map Prod.snd) found).symm

end Event

/-! ## Manipulators -/

namespace Manipulator

variable {manipulator : Manipulator}

/-- What the engine assigns on the release of the key, in order. -/
def assignmentsOnRelease (manipulator : Manipulator) : List (String × Int) :=
  manipulator.onPress.filterMap Event.assignmentOnRelease? ++
    manipulator.onRelease.filterMap Event.assignment?

/-- The variables after the press. -/
def pressed (manipulator : Manipulator) (value : String → Int) : String → Int :=
  runEvents manipulator.onPress value

/-- The variables after the release. -/
def released (manipulator : Manipulator) (value : String → Int) : String → Int :=
  runEvents manipulator.onRelease
    (assign (manipulator.onPress.filterMap Event.assignmentOnRelease?) value)

/-- The event of the press that assigns a variable last. -/
def lastSetter? (manipulator : Manipulator) (name : String) : Option Event :=
  manipulator.onPress.reverse.find? (·.assigns name)

theorem released_apply :
    manipulator.released value name =
      (lastAssigned? name manipulator.assignmentsOnRelease).getD (value name) := by
  rw [released, runEvents_eq_assign, ← assign_append, ← assignmentsOnRelease, assign_apply]

/-- After the press a variable has the value that its last setter gave it. -/
theorem pressed_apply {event : Event} {number : Int}
    (setter : manipulator.lastSetter? name = some event)
    (assigns : event.assignment? = some (name, number)) :
    manipulator.pressed value name = number := by
  rw [lastSetter?] at setter
  rw [pressed, runEvents_eq_assign, assign_apply, Event.lastAssigned?_assignments, setter,
    Option.bind_some, assigns]
  rfl

/-- What does not hold a variable that it sets to 1 has a reset of it for the release. -/
theorem reset_of_not_holdsOn {assignment : Assignment} {extra : Members Json}
    (free : ¬ manipulator.HoldsOn)
    (member : .setVariable assignment extra ∈ manipulator.onPress)
    (one : assignment.value = 1) :
    (assignment.name, 0) ∈ manipulator.assignmentsOnRelease := by
  rw [assignmentsOnRelease, List.mem_append, List.mem_filterMap, List.mem_filterMap]
  by_cases up : assignment.keyUpValue = some 0
  · refine Or.inl ⟨_, member, ?_⟩
    rw [Event.assignmentOnRelease?_setVariable, up]
    rfl
  · by_contra unset
    apply free
    refine ⟨assignment, extra, member, one, up, ?_⟩
    intro reset members among same zero
    apply unset
    refine Or.inr ⟨_, among, ?_⟩
    rw [Event.assignment?_setVariable, same, zero]

end Manipulator

/-! ## Documents -/

/--
Let a press set a variable to 1, in a document without errors.  If the event that
did so last was read as an assignment, the release sets the variable to 0.  The
variable is 1 after the release in two cases only: the release sets it to 1 again
after everything else, or it does not assign the variable at all and the event was
not read as an assignment.
-/
theorem Document.release_exact {document : Document} (sound : document.errors = [])
    {profile : Profile} (owned : profile ∈ document.profiles)
    {rule : Rule} (among : rule ∈ profile.rules)
    {manipulator : Manipulator} (member : manipulator ∈ rule.manipulators)
    {event : Event} (setter : manipulator.lastSetter? name = some event)
    (one : event.assignment? = some (name, 1)) (value : String → Int) :
    manipulator.pressed value name = 1 ∧
      (event.IsAssignment → (name, 0) ∈ manipulator.assignmentsOnRelease) ∧
      (manipulator.released (manipulator.pressed value) name = 1 ↔
        lastAssigned? name manipulator.assignmentsOnRelease = some 1 ∨
          (∀ number, (name, number) ∉ manipulator.assignmentsOnRelease) ∧
            ¬ event.IsAssignment) := by
  have pressed : manipulator.pressed value name = 1 := Manipulator.pressed_apply setter one
  have free : ¬ manipulator.HoldsOn := by
    intro holds
    exact Document.errors_ne_nil_iff.2 ⟨profile, owned, .holds among member holds⟩ sound
  have reset : event.IsAssignment → (name, 0) ∈ manipulator.assignmentsOnRelease := by
    rintro ⟨assignment, extra, rfl⟩
    have member := List.mem_reverse.1 (List.mem_of_find?_eq_some setter)
    rw [Event.assignment?_setVariable, Option.some.injEq, Prod.mk.injEq] at one
    rcases one with ⟨rfl, one⟩
    exact Manipulator.reset_of_not_holdsOn free member one
  refine ⟨pressed, reset, ?_⟩
  rw [Manipulator.released_apply, pressed, ← lastAssigned?_eq_none_iff]
  cases last : lastAssigned? name manipulator.assignmentsOnRelease with
  | none =>
      have unread : ¬ event.IsAssignment :=
        fun read => lastAssigned?_eq_none_iff.1 last 0 (reset read)
      simp [unread]
  | some number => simp

namespace Sample

/-- A document of one manipulator. -/
def singleDocument (manipulator : Manipulator) : Document where
  global := []
  profiles := [⟨"Default", none, [⟨"Rule", [manipulator]⟩]⟩]

/-- A key that sets a variable while it is held, and some events for its release. -/
def holder (event : Event) (onRelease : List Event) : Manipulator where
  from_ := .anyModifiers keyJ
  onPress := [event]
  onRelease := onRelease

/-- An assignment with a member that an assignment does not have. -/
def unreadEvent : Event :=
  .raw (.obj [("set_variable",
    .obj [("name", .str "x"), ("value", .int 1), ("type", .str "set")])])

/-- Resets the variable on the release. -/
def resetter : Manipulator :=
  holder (.set "x" 1) [.set "x" 0]

theorem errors_resetter : (singleDocument resetter).errors = [] := by decide +kernel

/-- The reset is what the release assigns, so the variable is not held. -/
theorem resetter_released :
    (singleDocument resetter).errors = [] ∧
      resetter.lastSetter? "x" = some (.set "x" 1) ∧
      (Event.set "x" 1).assignment? = some ("x", 1) ∧
      ∀ value, resetter.pressed value "x" = 1 ∧
        resetter.released (resetter.pressed value) "x" ≠ 1 := by
  have setter : resetter.lastSetter? "x" = some (.set "x" 1) := rfl
  refine ⟨errors_resetter, setter, rfl, ?_⟩
  intro value
  rcases Document.release_exact errors_resetter (.head _) (.head _) (.head _) setter rfl value
    with ⟨pressed, -, held⟩
  refine ⟨pressed, ?_⟩
  rw [ne_eq, held]
  rintro (last | ⟨absent, -⟩)
  · cases last
  · exact absent 0 (.head _)

/-- In a document without errors, sets the variable for longer than the key is held. -/
def LeavesSet (manipulator : Manipulator) : Prop :=
  (singleDocument manipulator).errors = [] ∧
    ∀ value, manipulator.pressed value "x" = 1 ∧
      manipulator.released (manipulator.pressed value) "x" = 1

/-- Both ways exist: a variable set again after its reset, and one set by an unread event. -/
theorem variable_left_set :
    LeavesSet (holder (.set "x" 1) [.set "x" 0, .set "x" 1]) ∧
      LeavesSet (holder unreadEvent []) := by
  constructor
  · refine ⟨by decide +kernel, ?_⟩
    intro value
    exact ⟨rfl, rfl⟩
  · refine ⟨by decide +kernel, ?_⟩
    intro value
    exact ⟨rfl, rfl⟩

end Sample

end KeyLayers
