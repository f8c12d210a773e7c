import KeyLayers.Cli.Arguments
import KeyLayers.Cli.Failure
import KeyLayers.Output.Build

/-!
# Commands

A command works on the files, prints lines as it goes on, and may fail; what it
has printed and written by then stays.  Every command says first which spec file
it reads, except the one that prints nothing but the document.
-/

namespace KeyLayers.Cli

/-- The files, and what has been printed so far. -/
structure Session where
  files : FileSystem
  printed : String := ""

/-- A part of a command. -/
abbrev Act (α : Type) := ExceptT Failure (StateM Session) α

/-- Prints a text as it is. -/
def say (text : String) : Act Unit :=
  modify fun session => { session with printed := session.printed ++ text }

/-- Prints a line. -/
def sayLine (line : String) : Act Unit :=
  say (line ++ "\n")

/-- Carries out a task on the files; its error becomes the failure. -/
def carryOut {α : Type} (task : FileTask α) (during : Option String := none) : Act α := do
  let session ← get
  let (result, files) := task.perform session.files
  set { session with files }
  match result with
  | .ok value => return value
  | .error error => throw (.output during error)

/-- A count with a noun, which has an `s` at its end unless the count is one. -/
def counted (count : Nat) (noun : String) : String :=
  s!"{count} {noun}" ++ (if count = 1 then "" else "s")

/-- Says which spec file is read. -/
def sayReading (spec : Path) : Act Unit :=
  sayLine s!"→ Reading spec: {spec.text}"

/-- Reads the spec file. -/
def load (spec : Path) : Act Spec :=
  carryOut (Spec.load spec) s!"Failed to load {spec.text}"

/-- Says which spec file is read, and reads it. -/
def loadAloud (spec : Path) : Act Spec := do
  sayReading spec
  load spec

/-! ## Compiling -/

/-- Builds the output. -/
def build (environment : Environment) (now : Timestamp) (request : BuildRequest) :
    Act Unit := do
  sayReading request.spec
  let summary ← carryOut (request.run environment now) s!"Failed to build {request.spec.text}"
  if let some backup := summary.backup? then
    sayLine s!"→ Backup: {backup.text}"
  let rules := counted summary.rules "rule"
  let profiles := counted summary.profiles "profile"
  sayLine s!"✓ Wrote {rules} across {profiles} to {summary.output.text}"

/-- What is printed about an issue with a number. -/
def issueLines (number : Nat) (issue : Issue) : List String :=
  let level := if issue.problem.severity = .error then "Error" else "Warning"
  [s!"{level} {number} {issue.rule}", s!"  {issue.problem.message}"] ++
    (issue.problem.suggestion?.map ("  hint: " ++ ·)).toList ++ [""]

/-- Compiles the spec file and reports every issue of the document. -/
def check (spec : Path) : Act Unit := do
  let spec ← loadAloud spec
  let document ← carryOut spec.compiled
  let manipulators := (Located.ofRules (document.rules.map Prod.snd)).length
  sayLine s!"✓ Compiled {manipulators} manipulators\n"
  if document.issues.isEmpty then
    sayLine "✓ No problems detected!"
  else
    let lines := (document.issues.mapIdx fun index => issueLines (index + 1)).flatten
    lines.forM sayLine
    unless document.errors.isEmpty do throw .refused

/-- Prints the document. -/
def print (spec : Path) : Act Unit := do
  let spec ← load spec
  say (← carryOut spec.compiled).text

/-- Prints the variables of a profile. -/
def sayStates (profile : String) (states : List (LeaderPath × StateVariable)) :
    Act Unit := do
  sayLine s!"Profile: {profile}\n"
  states.forM fun (path, state) => sayLine s!"{path.display} → {state.name}"
  sayLine s!"\n✓ Total: {states.length} variables\n"

/-- Prints the variables of each profile, up to the first that cannot be compiled. -/
def vars (spec : Path) : Act Unit := do
  let spec ← loadAloud spec
  let options ← carryOut (FileTask.ofExcept (spec.options.mapError .spec))
  spec.allProfiles.forM fun profile => do
    let compiled := (spec.compileProfile options profile).mapError OutputError.spec
    let compilation ← carryOut (FileTask.ofExcept compiled)
    sayStates profile.name compilation.states

/-! ## Backups -/

/-- The output whose backups are meant: the one that is named, or that of the spec file. -/
def outputFor (environment : Environment) (spec : Path) (named : Option String) :
    Act Output := do
  let path ← match named with
    | some path => pure (environment.expandTilde path)
    | none => (·.outputPath environment none) <$> loadAloud spec
  carryOut (Output.prepare (.ofText path))

/-- Lists the backups of the output. -/
def backups (environment : Environment) (spec : Path) (named : Option String) :
    Act Unit := do
  let output ← outputFor environment spec named
  let backups ← carryOut output.listBackups
  sayLine s!"Backups of: {output.path.text}\n"
  backups.forM fun backup => sayLine ("  " ++ backup.name?.getD "")
  sayLine s!"\n✓ Total: {backups.length} backups"

/-- The backup that is meant by a path, or else by a name in the directory of the backups. -/
def backupFor (output : Output) (backup : Path) : Act Path := do
  if (← get).files.isPresent backup then return backup
  else return output.backups.join backup

/-- Brings back a backup of the output. -/
def restore (environment : Environment) (now : Timestamp) (spec : Path)
    (named : Option String) (backup : Path) : Act Unit := do
  let output ← outputFor environment spec named
  let backup ← backupFor output backup
  carryOut (output.restore backup now)
  sayLine s!"✓ Restored {output.path.text} from {backup.text}"

/-- Carries out a command. -/
def Invocation.run (invocation : Invocation) (environment : Environment) (now : Timestamp) :
    Act Unit :=
  let spec : Path := .ofText (environment.expandTilde invocation.spec)
  match invocation.command with
  | .build takesBackup =>
      build environment now { spec, output := invocation.output, takesBackup }
  | .check => check spec
  | .print => print spec
  | .vars => vars spec
  | .backups => backups environment spec invocation.output
  | .restore backup =>
      restore environment now spec invocation.output (.ofText backup)

end KeyLayers.Cli
