import KeyLayers.Key

/-!
# Modifier keys

A modifier is held together with a key.  The order of the constructors is the
canonical order in which modifiers are written: control, option, shift,
command, the left-hand keys first, then the right-hand ones, then the names
that match either side.

`Modifier.canonical` is the normal form of a set of modifiers: each one once,
in canonical order.
-/

namespace KeyLayers

/-- A modifier as the engine understands it. -/
inductive Modifier where
  | leftControl
  | leftOption
  | leftShift
  | leftCommand
  | rightControl
  | rightOption
  | rightShift
  | rightCommand
  | control
  | option
  | shift
  | command
  | fn
  | capsLock
  /-- Matches whatever is held; it cannot be sent. -/
  | any
deriving DecidableEq, Repr

namespace Modifier

/-- Every modifier, in canonical order. -/
def all : List Modifier :=
  [ .leftControl, .leftOption, .leftShift, .leftCommand,
    .rightControl, .rightOption, .rightShift, .rightCommand,
    .control, .option, .shift, .command, .fn, .capsLock, .any ]

/-- The engine's name of a modifier. -/
def name : Modifier → String
  | leftControl => "left_control"
  | leftOption => "left_option"
  | leftShift => "left_shift"
  | leftCommand => "left_command"
  | rightControl => "right_control"
  | rightOption => "right_option"
  | rightShift => "right_shift"
  | rightCommand => "right_command"
  | control => "control"
  | option => "option"
  | shift => "shift"
  | command => "command"
  | fn => "fn"
  | capsLock => "caps_lock"
  | any => "any"

/-- Short spellings; those that name no side mean the left-hand key. -/
def aliases : List (String × Modifier) :=
  [ ("ctrl", leftControl), ("ctl", leftControl), ("lctrl", leftControl),
    ("⌃", leftControl),
    ("opt", leftOption), ("alt", leftOption), ("lopt", leftOption),
    ("lalt", leftOption), ("⌥", leftOption),
    ("lshift", leftShift), ("⇧", leftShift),
    ("cmd", leftCommand), ("lcmd", leftCommand), ("⌘", leftCommand),
    ("rctrl", rightControl),
    ("ropt", rightOption), ("ralt", rightOption),
    ("rshift", rightShift),
    ("rcmd", rightCommand) ]

/-- The modifier with exactly the given engine name. -/
def ofName? (name : String) : Option Modifier :=
  all.find? (·.name == name)

/-- The modifier that a folded spelling stands for. -/
def ofSpelling? (spelling : String) : Option Modifier :=
  ofName? spelling <|> aliases.lookup spelling

/-- Resolves a name or an alias, without regard to case and outer blanks. -/
def parse (name : String) : Except NameError Modifier :=
  match ofSpelling? (Text.fold name) with
  | some modifier => .ok modifier
  | none => .error (.unknownModifier name)

/-- The four left-hand modifiers together. -/
def hyper : List Modifier :=
  [leftControl, leftOption, leftShift, leftCommand]

/-- The left-hand modifiers without command. -/
def meh : List Modifier :=
  [leftControl, leftOption, leftShift]

/-- The modifiers that a group name stands for. -/
def group? (name : String) : Option (List Modifier) :=
  match Text.fold name with
  | "hyper" => some hyper
  | "meh" => some meh
  | _ => none

/-- The sign printed on the key, for the modifiers that have one. -/
def glyph? : Modifier → Option Char
  | leftControl | rightControl | control => some '⌃'
  | leftOption | rightOption | option => some '⌥'
  | leftShift | rightShift | shift => some '⇧'
  | leftCommand | rightCommand | command => some '⌘'
  | fn | capsLock | any => none

/-- The normal form of a set of modifiers: canonical order, each one once. -/
def canonical (modifiers : List Modifier) : List Modifier :=
  all.filter (· ∈ modifiers)

theorem mem_all (modifier : Modifier) : modifier ∈ all := by
  cases modifier <;> decide

@[simp]
theorem mem_canonical {modifier : Modifier} {modifiers : List Modifier} :
    modifier ∈ canonical modifiers ↔ modifier ∈ modifiers := by
  simp [canonical, mem_all]

/-- The normal form depends on which modifiers are held and on nothing else. -/
theorem canonical_congr {left right : List Modifier}
    (same : ∀ modifier, modifier ∈ left ↔ modifier ∈ right) :
    canonical left = canonical right := by
  simp [canonical, same]

@[simp]
theorem canonical_canonical (modifiers : List Modifier) :
    canonical (canonical modifiers) = canonical modifiers :=
  canonical_congr fun _ => mem_canonical

@[simp]
theorem ofName?_name (modifier : Modifier) :
    ofName? modifier.name = some modifier := by
  cases modifier <;> decide +kernel

theorem fold_name (modifier : Modifier) : Text.fold modifier.name = modifier.name := by
  cases modifier <;> decide +kernel

end Modifier

end KeyLayers
