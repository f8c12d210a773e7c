import KeyLayers.Pattern.Set
import KeyLayers.Text.Letter

/-!
# The syntax of patterns

A pattern is a regular expression without look-around and back-references.  It
is read from left to right with a stack of the groups that are still open; of
each finished part its measures are kept, and whether it can be repeated.
Parts may be nested 250 deep, and the compiled form may take ten mebibytes.
-/

namespace KeyLayers.Pattern

open Text (isLetter isAlphanumeric isBlank)

/-- A finished part of a pattern. -/
structure Part where
  measure : Measure
  /-- Something stands there that a repetition can apply to. -/
  repeatable : Bool := true
  /-- The part can match the empty text only. -/
  widthless : Bool := false

/-- The parts between an opening and a closing parenthesis so far, last ones first. -/
structure Body where
  /-- The alternatives before the current one. -/
  branches : List Part := []
  /-- The parts of the current alternative. -/
  parts : List Part := []

/-- A group that is still open. -/
structure OpenGroup where
  /-- What stands before the group. -/
  before : Body
  /-- The mode outside the group. -/
  mode : Mode
  /-- The group remembers what it matches. -/
  capturing : Bool

/-- Parts in sequence, or as alternatives. -/
def joinParts (parts : List Part) : Part :=
  { measure := Measure.join (parts.map Part.measure)
    widthless := parts.all (·.widthless) }

/-- The body as one part. -/
def Body.whole (body : Body) : Part :=
  joinParts (joinParts body.parts :: body.branches)

/-- The body with one more part. -/
def Body.add (body : Body) (part : Part) : Body :=
  { body with parts := part :: body.parts }

/-- The body with its current alternative finished. -/
def Body.branch (body : Body) : Body :=
  ⟨joinParts body.parts :: body.branches, []⟩

/-! ## Repetition -/

/-- The greatest count that a repetition may have. -/
def greatestCount : Nat := 0xffffffff

/-- The part repeated between `least` and `greatest` times. -/
def Part.repeated (part : Part) (least : Nat) (greatest : Option Nat) : Part :=
  let copies := max 1 (greatest.getD least)
  let count := if part.widthless then 1 else copies
  let never := greatest == some 0
  let choices := 40 * (if greatest.isNone then 2 else count - least)
  { measure :=
      { depth := part.measure.depth + 1
        weight := if never then stateWeight else part.measure.weight * count + choices }
    widthless := part.widthless || never }

/-- Replaces the last part by its repetition, if there is one to repeat. -/
def Body.repeatLast? (body : Body) (least : Nat) (greatest : Option Nat) : Option Body :=
  match body.parts with
  | part :: before =>
      if part.repeatable then
        some { body with parts := part.repeated least greatest :: before }
      else none
  | [] => none

/-- Passes over the sign of a repetition that takes as little as it can. -/
def skipLazy : List Char → List Char
  | '?' :: rest => rest
  | rest => rest

/-- Reads the digits of a count; in the spaced mode they may be set apart. -/
def readDigits (mode : Mode) (text : List Char) : List Char × List Char :=
  match text with
  | [] => ([], [])
  | c :: rest =>
      if c.isDigit then
        have := length_skip_le mode rest
        let (digits, left) := readDigits mode (skip mode rest)
        (c :: digits, left)
      else ([], c :: rest)
termination_by text.length
decreasing_by simp; omega

/-- Passes over blanks, and over comments in the spaced mode. -/
def skipAround (mode : Mode) (text : List Char) : List Char :=
  skip mode (text.dropWhile isBlank)

/-- Reads a count, with blanks around it. -/
def readCount (mode : Mode) (text : List Char) : Option (Nat × List Char) :=
  let (digits, left) := readDigits mode (text.dropWhile isBlank)
  let value := Nat.ofDigitChars 10 digits 0
  if digits.isEmpty || greatestCount < value then none else some (value, skipAround mode left)

/-- Reads the counts of a repetition, after its brace. -/
def readCounts (mode : Mode) (text : List Char) : Option (Nat × Option Nat × List Char) := do
  let (least, left) ← readCount mode (skip mode text)
  match left with
  | '\x7d' :: rest => return (least, some least, rest)
  | ',' :: rest =>
      match skip mode rest with
      | '\x7d' :: rest => return (least, none, rest)
      | start => do
          let (greatest, left) ← readCount mode start
          match left with
          | '\x7d' :: rest =>
              if least ≤ greatest then return (least, some greatest, rest) else none
          | _ => none
  | _ => none

/-! ## Groups -/

/-- The letters of the flags. -/
def flagLetters : List Char :=
  ['i', 'm', 's', 'U', 'u', 'R', 'x']

/-- The mode after a flag has been set or cleared. -/
def Mode.set (mode : Mode) (flag : Char) (value : Bool) : Mode :=
  match flag with
  | 'x' => { mode with spaced := value }
  | 'u' => { mode with unicode := value }
  | _ => mode

/-- The mode after some flags, those behind a hyphen being cleared. -/
def Mode.apply (mode : Mode) (flags : List Char) : Mode :=
  let cleared := (flags.dropWhile (· != '-')).drop 1
  cleared.foldl (·.set · false) ((flags.takeWhile (· != '-')).foldl (·.set · true) mode)

/-- Whether each flag occurs once, and a hyphen is followed by one. -/
def areFlags (flags : List Char) : Bool :=
  flags.all (fun c => c == '-' || flagLetters.contains c) && decide flags.Nodup &&
    flags.getLast? != some '-'

/-- Whether a text is the name of a group. -/
def isGroupName (name : List Char) : Bool :=
  let follows (c : Char) : Bool :=
    c == '_' || c == '.' || c == '[' || c == ']' || isAlphanumeric c
  match name with
  | [] => false
  | c :: rest => (c == '_' || isLetter c) && rest.all follows

/-- What stands after an opening parenthesis. -/
inductive Opening where
  /-- A group that remembers what it matches, and its name if it has one. -/
  | capture (name : Option String)
  /-- A group with a mode of its own. -/
  | grouping (mode : Mode)
  /-- No group: the mode changes up to the end of the group around it. -/
  | setting (mode : Mode)

/-- Reads the name of a group and its bracket. -/
def readGroupName (text : List Char) : Option (Opening × List Char) :=
  let name := text.takeWhile (· != '>')
  match text.dropWhile (· != '>') with
  | _ :: rest =>
      if isGroupName name then some (.capture (some (String.ofList name)), rest) else none
  | [] => none

/-- Reads flags up to a colon or a closing parenthesis. -/
def readFlags (mode : Mode) (text : List Char) : Option (Opening × List Char) :=
  let isEnd (c : Char) : Bool := c == ':' || c == ')'
  let flags := text.takeWhile (!isEnd ·)
  if areFlags flags then
    match text.dropWhile (!isEnd ·) with
    | ':' :: rest => some (.grouping (mode.apply flags), rest)
    | ')' :: rest => if flags.isEmpty then none else some (.setting (mode.apply flags), rest)
    | _ => none
  else none

/-- Reads what stands after an opening parenthesis. -/
def readOpening (mode : Mode) (text : List Char) : Option (Opening × List Char) :=
  match skip mode text with
  | '?' :: 'P' :: '<' :: rest => readGroupName rest
  | '?' :: '<' :: c :: rest => if c == '=' || c == '!' then none else readGroupName (c :: rest)
  | '?' :: rest => readFlags mode rest
  | start => some (.capture none, start)

/-! ## The whole pattern -/

/-- What has been read of a pattern. -/
structure State where
  mode : Mode := {}
  body : Body := {}
  groups : List OpenGroup := []
  /-- The names of groups so far. -/
  names : List String := []

/-- The state with one more part. -/
def State.add (state : State) (part : Part) : State :=
  { state with body := state.body.add part }

/-- The weight of the two places that a group remembers. -/
def captureWeight : Nat := 2 * stateWeight

/-- The state inside a group that begins here, or in a new mode. -/
def State.open? (state : State) (opening : Opening) : Option State :=
  match opening with
  | .setting mode =>
      some ({ state with mode }.add { measure := {}, repeatable := false, widthless := true })
  | .grouping mode =>
      some { state with
        mode
        body := {}
        groups := ⟨state.body, state.mode, false⟩ :: state.groups }
  | .capture name =>
      let names := name.toList
      if names.any state.names.contains then none
      else some { state with
        body := {}
        groups := ⟨state.body, state.mode, true⟩ :: state.groups
        names := names ++ state.names }

/-- The state after the innermost group. -/
def State.close? (state : State) : Option State :=
  match state.groups with
  | [] => none
  | group :: groups =>
      let whole := state.body.whole
      let measure := whole.measure.nest
      let weight := measure.weight + (if group.capturing then captureWeight else 0)
      let part : Part := { measure := { measure with weight }, widthless := whole.widthless }
      some { state with mode := group.mode, body := group.before.add part, groups }

/-- Whether an atom may stand outside a set. -/
def Atom.isAllowed (mode : Mode) : Atom → Bool
  | .literal c octet => mode.unicode || !octet || c.toNat < 128
  | .family _ negated => mode.unicode || !negated
  | .property => mode.unicode
  | .place => true

/-- An atom as a part. -/
def Atom.part (mode : Mode) (atom : Atom) : Part :=
  { measure := ⟨0, atom.weight mode⟩
    widthless := match atom with
      | .place => true
      | _ => false }

/-- Reads a repetition, after its sign. -/
def State.repeat? (state : State) (least : Nat) (greatest : Option Nat)
    (left : List Char) : Option (State × List Char) :=
  (state.body.repeatLast? least greatest).map fun body =>
    ({ state with body }, skipLazy left)

/-- Reads the next part. -/
def State.step (state : State) (sign : Char) (rest : List Char) :
    Option (State × List Char) :=
  let mode := state.mode
  match sign with
  | '(' => do
      let (opening, left) ← readOpening mode rest
      return (← state.open? opening, left)
  | ')' => state.close?.map (·, rest)
  | '|' => some ({ state with body := state.body.branch }, rest)
  | '[' => (readSet mode rest).map fun (measure, left) => (state.add { measure }, left)
  | '?' => state.repeat? 0 (some 1) rest
  | '*' => state.repeat? 0 none rest
  | '+' => state.repeat? 1 none rest
  | '\x7b' => do
      let (least, greatest, left) ← readCounts mode rest
      state.repeat? least greatest (skip mode left)
  | '.' => if mode.unicode then some (state.add { measure := ⟨0, broadWeight⟩ }, rest) else none
  | '^' | '$' => some (state.add (Atom.place.part mode), rest)
  | _ => do
      let (atom, left) ← readSign mode (sign :: rest)
      if atom.isAllowed mode then return (state.add (atom.part mode), left) else none

/--
Reads on to the end of the pattern.

Each step reads at least one sign; the guard on the lengths makes that plain.
-/
def readAll (state : State) (text : List Char) : Option Part :=
  match skip state.mode text with
  | [] => if state.groups.isEmpty then some state.body.whole else none
  | sign :: rest =>
      (state.step sign rest).bind fun (state, left) =>
        if left.length < text.length then readAll state left else none
termination_by text.length

/-! ## Errors -/

/-- Why a pattern cannot be used. -/
inductive Fault where
  /-- The text is no pattern. -/
  | malformed
  /-- The compiled form takes too much space. -/
  | tooLarge
deriving DecidableEq, Repr

/-- The greatest depth of a pattern. -/
def greatestDepth : Nat := 250

/-- The greatest number of octets of a compiled pattern. -/
def sizeLimit : Nat := 10 * 1024 * 1024

/-- The fault of a pattern, if it has one. -/
def fault? (pattern : String) : Option Fault :=
  match readAll {} pattern.toList with
  | none => some .malformed
  | some whole =>
      if greatestDepth < whole.measure.depth then some .malformed
      else if sizeLimit < whole.measure.weight then some .tooLarge
      else none

/-- The first line of what an author reads about a faulty pattern. -/
def Fault.message : Fault → String
  | .malformed => "regex parse error:"
  | .tooLarge => s!"Compiled regex exceeds size limit of {sizeLimit} bytes."

end KeyLayers.Pattern
