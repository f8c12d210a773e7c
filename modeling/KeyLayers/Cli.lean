import KeyLayers.Cli.Session

/-!
# The command line

A command line that is understood is carried out.  The exit code tells success,
failure and misuse apart.
-/

namespace KeyLayers.Cli

/-- What a command line leaves behind. -/
structure Outcome where
  code : Nat
  printed : String := ""
  /-- What is printed about a failure. -/
  failure : Option String := none
  files : FileSystem

/-- The outcome of a command line that is not carried out. -/
def Stop.outcome (stop : Stop) (files : FileSystem) : Outcome :=
  match stop with
  | .misuse => { code := 2, files }
  | .help | .version => { code := 0, files }

/-- Carries out a command line. -/
def run (environment : Environment) (now : Timestamp) (files : FileSystem)
    (arguments : List String) : Outcome :=
  match Invocation.ofArguments environment arguments with
  | .error stop => stop.outcome files
  | .ok invocation =>
      match (ExceptT.run (invocation.run environment now)).run { files } with
      | (.ok (), session) =>
          { code := 0, printed := session.printed, files := session.files }
      | (.error failure, session) =>
          { code := 1, printed := session.printed, failure := some failure.report,
            files := session.files }

end KeyLayers.Cli
