import KeyLayers.Hyper
import KeyLayers.Proofs.Layer.Path
import Mathlib.Logic.Function.Basic

/-!
# The engine that runs the rules

The engine keeps variables, knows the frontmost application, and remembers for
each held key which manipulator fired when the key went down.  When a key goes
down it fires the first manipulator on that key whose conditions hold and runs
its events; when the key goes up it runs the events that this manipulator has
for the release.

In between, everything that the layers do not own may change on its own: the
frontmost application and the variables whose names do not begin like those of
the layers.
-/

namespace KeyLayers

/-! ## Conditions -/

/-- What conditions are about. -/
structure Surroundings where
  /-- The value of each variable. -/
  value : String → Int
  /-- Whether a pattern matches the frontmost application. -/
  frontmost : String → Bool

/-- Whether a condition holds. -/
def Condition.holds (surroundings : Surroundings) : Condition → Bool
  | .variableIf name value => surroundings.value name == value
  | .variableUnless name value => surroundings.value name != value
  | .frontmostIf patterns => patterns.any surroundings.frontmost
  | .frontmostUnless patterns => !patterns.any surroundings.frontmost

/-- Whether a manipulator listens for a key while all its conditions hold. -/
def Manipulator.fits (surroundings : Surroundings) (key : Key)
    (manipulator : Manipulator) : Bool :=
  manipulator.from_.key == key && manipulator.conditions.all (·.holds surroundings)

/-- The first manipulator of some rules that fits. -/
def firstFit (rules : List Rule) (surroundings : Surroundings) (key : Key) :
    Option Manipulator :=
  (rules.flatMap Rule.manipulators).find? (·.fits surroundings key)

/-- The rules of a compilation, one for each of its blocks. -/
def Compilation.rules (label : String) (compilation : Compilation) : List Rule :=
  compilation.blocks.map (LayerBlock.rule label)

@[simp]
theorem StateVariable.holds_active (surroundings : Surroundings)
    (state : StateVariable) :
    state.active.holds surroundings = (surroundings.value state.name == 1) := rfl

@[simp]
theorem StateVariable.holds_inactive (surroundings : Surroundings)
    (state : StateVariable) :
    state.inactive.holds surroundings = (surroundings.value state.name == 0) := rfl

/-! ## Events -/

/--
The variable that an event assigns and its new value.  The engine looks at the
member `set_variable` of an event, whichever kind the event was read as.
-/
def Event.assignment? (event : Event) : Option (String × Int) :=
  match event.toJson with
  | .obj members =>
      match Members.get? members "set_variable" with
      | some (.obj payload) =>
          match Members.get? payload "name", Members.get? payload "value" with
          | some (.str name), some (.int value) => some (name, value)
          | _, _ => none
      | _ => none
  | _ => none

/-- The variables after an event. -/
def Event.run (event : Event) (value : String → Int) : String → Int :=
  match event.assignment? with
  | some (name, number) => Function.update value name number
  | none => value

/-- The variables after some events, one after the other. -/
def runEvents (events : List Event) (value : String → Int) : String → Int :=
  events.foldl (fun value event => event.run value) value

@[simp]
theorem runEvents_nil (value : String → Int) : runEvents [] value = value := rfl

@[simp]
theorem Event.assignment?_set (name : String) (value : Int) :
    (Event.set name value).assignment? = some (name, value) := rfl

theorem runEvents_set (state : StateVariable) (number : Int) (value : String → Int) :
    runEvents [state.set number] value = Function.update value state.name number := by
  simp [runEvents, Event.run, StateVariable.set]

/-- The events of an action assign nothing. -/
theorem runEvents_encode (action : Action) (value : String → Int) :
    runEvents action.encode value = value := by
  cases action with
  | sendChord chord =>
      rcases chord with ⟨key, modifiers⟩
      cases modifiers <;> rfl
  | runShell command => rfl
  | openTarget target => rfl
  | launchApp name => rfl
  | selectInput source => rfl

/-! ## Runs -/

/-- A key as the engine sees it. -/
inductive KeyState where
  | up
  /-- Held, with the manipulator that fired when the key went down. -/
  | down (fired : Option Manipulator)

/-- A state of the engine. -/
structure EngineState extends Surroundings where
  keys : Key → KeyState

namespace EngineState

/-- The state after a key has gone down. -/
def press (rules : List Rule) (state : EngineState) (key : Key) : EngineState :=
  let fired := firstFit rules state.toSurroundings key
  { state with
    value := runEvents (fired.elim [] Manipulator.onPress) state.value
    keys := Function.update state.keys key (.down fired) }

/-- The state after a key has gone up, which had fired a manipulator or none. -/
def release (state : EngineState) (key : Key) (fired : Option Manipulator) :
    EngineState :=
  { state with
    value := runEvents (fired.elim [] Manipulator.onRelease) state.value
    keys := Function.update state.keys key .up }

/-- One step of the engine under the rules of some layers. -/
inductive Step (options : CompileOptions) (rules : List Rule) :
    EngineState → EngineState → Prop where
  | press {state : EngineState} {key : Key} (free : state.keys key = .up) :
      Step options rules state (state.press rules key)
  | release {state : EngineState} {key : Key} {fired : Option Manipulator}
      (held : state.keys key = .down fired) :
      Step options rules state (state.release key fired)
  /-- A change of what the layers do not own. -/
  | drift {state : EngineState} (surroundings : Surroundings)
      (kept : ∀ name, options.owns name = true →
        surroundings.value name = state.value name) :
      Step options rules state { surroundings with keys := state.keys }

/-- The states that some rules can lead to when no key is held at first. -/
inductive Reachable (options : CompileOptions) (rules : List Rule) :
    EngineState → Prop where
  | start (frontmost : String → Bool) :
      Reachable options rules
        { value := fun _ => 0, frontmost := frontmost, keys := fun _ => .up }
  | next {state after : EngineState} (reachable : Reachable options rules state)
      (step : Step options rules state after) : Reachable options rules after

end EngineState

end KeyLayers
