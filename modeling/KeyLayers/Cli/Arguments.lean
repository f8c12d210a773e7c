import KeyLayers.Environment

/-!
# Arguments of the command line

A command line has options, a command, and the command's own options and
arguments.  The options that every command has may stand before or after the
command; what is given after it wins, then what is given before it, then a
variable of the environment.

Each option may be given once before and once after the command, except that
verbosity may be given any number of times.  An option that takes a value takes
it from the rest of its own argument or from the next argument, which must not
look like an option.  After `--` nothing is an option any more.
-/

namespace KeyLayers.Cli

/-- What is to be done. -/
inductive Command where
  | build (takesBackup : Bool)
  | check
  | print
  | vars
  | backups
  | restore (backup : String)
deriving DecidableEq, Repr

/-- A command with the files it is about. -/
structure Invocation where
  /-- The path of the spec file. -/
  spec : String
  /-- The output that is named explicitly. -/
  output : Option String
  command : Command
deriving DecidableEq, Repr

/-- Why a command line is not carried out. -/
inductive Stop where
  | misuse
  | help
  | version
deriving DecidableEq, Repr

/-- The names of the commands. -/
inductive Verb where
  | build
  | check
  | print
  | vars
  | backups
  | restore
deriving DecidableEq, Repr

/-- The verb with a name. -/
def Verb.ofName? : String → Option Verb
  | "build" => some .build
  | "check" => some .check
  | "print" => some .print
  | "vars" => some .vars
  | "backups" => some .backups
  | "restore" => some .restore
  | _ => none

/-! ## Options -/

/-- The options that have a value. -/
inductive ValueOption where
  | spec
  | output
deriving DecidableEq, Repr

/-- The options that have none. -/
inductive Flag where
  | verbose
  | noBackup
  | help
  | version
deriving DecidableEq, Repr

/-- The option with a long name. -/
def longOption? : String → Option (ValueOption ⊕ Flag)
  | "spec" => some (.inl .spec)
  | "output" => some (.inl .output)
  | "verbose" => some (.inr .verbose)
  | "no-backup" => some (.inr .noBackup)
  | "help" => some (.inr .help)
  | "version" => some (.inr .version)
  | _ => none

/-- The option with a short name. -/
def shortOption? : Char → Option (ValueOption ⊕ Flag)
  | 's' => some (.inl .spec)
  | 'o' => some (.inl .output)
  | 'v' => some (.inr .verbose)
  | 'h' => some (.inr .help)
  | 'V' => some (.inr .version)
  | _ => none

/-- What was given on one side of the command. -/
structure Given where
  spec : Option String := none
  output : Option String := none
  noBackup : Bool := false
  argument : Option String := none
deriving DecidableEq, Repr

namespace Given

/-- Takes down the value of an option, which must not be empty or given twice. -/
def setValue (given : Given) (option : ValueOption) (value : String) : Except Stop Given :=
  if value = "" then .error .misuse
  else
    match option, given.spec, given.output with
    | .spec, none, _ => .ok { given with spec := some value }
    | .output, _, none => .ok { given with output := some value }
    | _, _, _ => .error .misuse

/-- Takes down a flag; before the command and after it there are different ones. -/
def setFlag (given : Given) (verb : Option Verb) (flag : Flag) : Except Stop Given :=
  match flag with
  | .verbose => .ok given
  | .help => .error .help
  | .version => .error (if verb.isNone then .version else .misuse)
  | .noBackup =>
      if verb = some .build ∧ given.noBackup = false then .ok { given with noBackup := true }
      else .error .misuse

/-- Takes down an argument that is no option. -/
def setArgument (given : Given) (verb : Option Verb) (argument : String) :
    Except Stop Given :=
  if verb = some .restore ∧ given.argument = none ∧ argument ≠ "" then
    .ok { given with argument := some argument }
  else .error .misuse

/-- Takes down options by their short names; the last one may still wait for its value. -/
def setShort (given : Given) (verb : Option Verb) :
    List Char → Except Stop (Given × Option ValueOption)
  | [] => .ok (given, none)
  | c :: rest =>
      match shortOption? c with
      | none => .error .misuse
      | some (.inr flag) => do setShort (← given.setFlag verb flag) verb rest
      | some (.inl option) =>
          match rest with
          | [] => .ok (given, some option)
          | '=' :: value => do return (← given.setValue option (String.ofList value), none)
          | value => do return (← given.setValue option (String.ofList value), none)

/-- Takes down an option by its long name, with what stands after an equals sign. -/
def setLong (given : Given) (verb : Option Verb) (text : List Char) :
    Except Stop (Given × Option ValueOption) :=
  let name := String.ofList (text.takeWhile (· != '='))
  match longOption? name, text.dropWhile (· != '=') with
  | some (.inl option), [] => .ok (given, some option)
  | some (.inl option), _ :: value => do
      return (← given.setValue option (String.ofList value), none)
  | some (.inr flag), [] => do return (← given.setFlag verb flag, none)
  | _, _ => .error .misuse

end Given

/-! ## Arguments in order -/

/-- What an argument looks like. -/
inductive Shape where
  | endOfOptions
  | long (text : List Char)
  | short (text : List Char)
  | plain
deriving DecidableEq, Repr

/-- The shape of an argument; a lone hyphen is plain. -/
def Shape.of (argument : String) : Shape :=
  match argument.toList with
  | ['-', '-'] => .endOfOptions
  | '-' :: '-' :: text => .long text
  | '-' :: c :: text => .short (c :: text)
  | _ => .plain

/-- Reads what is given up to the command, which may follow, or after it. -/
def scan (verb : Option Verb) (given : Given) (waiting : Option ValueOption) :
    List String → Except Stop (Given × Option (String × List String))
  | [] => if waiting.isSome then .error .misuse else .ok (given, none)
  | argument :: rest =>
      match Shape.of argument, waiting with
      | .plain, some option => do scan verb (← given.setValue option argument) none rest
      | _, some _ => .error .misuse
      | .long text, none => do
          let (given, waiting) ← given.setLong verb text
          scan verb given waiting rest
      | .short text, none => do
          let (given, waiting) ← given.setShort verb text
          scan verb given waiting rest
      | .plain, none =>
          if verb.isNone then .ok (given, some (argument, rest))
          else do scan verb (← given.setArgument verb argument) none rest
      | .endOfOptions, none => do
          return (← rest.foldlM (fun given => given.setArgument verb) given, none)

/-- The request for help, possibly about a command. -/
def helpAbout : List String → Stop
  | [] => .help
  | [name] => if name = "help" ∨ (Verb.ofName? name).isSome then .help else .misuse
  | _ => .misuse

/-- The command that a verb and what is given after it make. -/
def Verb.command (verb : Verb) (given : Given) : Except Stop Command :=
  match verb, given.argument with
  | .build, _ => .ok (.build !given.noBackup)
  | .check, _ => .ok .check
  | .print, _ => .ok .print
  | .vars, _ => .ok .vars
  | .backups, _ => .ok .backups
  | .restore, some backup => .ok (.restore backup)
  | .restore, none => .error .misuse

/--
The value of an option: from after the command, from before it, or from a
variable, which may be empty only if the option is given on both sides.
-/
def chosen (variable_ before after : Option String) : Except Stop (Option String) :=
  if variable_ = some "" ∧ (before = none ∨ after = none) then .error .misuse
  else .ok (after.or (before.or variable_))

/-- Where the spec file is if nothing else is said. -/
def defaultSpec : String := "~/.config/karabiner/hyper.toml"

/-- Reads a command line. -/
def Invocation.ofArguments (environment : Environment) (arguments : List String) :
    Except Stop Invocation := do
  let (before, rest) ← scan none {} none arguments
  let some (name, rest) := rest | .error .misuse
  if name = "help" then .error (helpAbout rest)
  let some verb := Verb.ofName? name | .error .misuse
  let (after, _) ← scan (some verb) {} none rest
  let command ← verb.command after
  let spec ← chosen (environment.get? "HYPER_SUBLAYERS_SPEC") before.spec after.spec
  let output ← chosen (environment.get? "KARABINER_CONFIG") before.output after.output
  return { spec := spec.getD defaultSpec, output, command }

end KeyLayers.Cli
