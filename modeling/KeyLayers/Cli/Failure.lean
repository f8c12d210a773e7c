import KeyLayers.Output.Error

/-!
# Failures of commands

A failure is reported by its message and those of its causes.  A single cause is
indented; of several, each one has its number.  Further lines of a cause line up
with its first one.
-/

namespace KeyLayers.Cli

/-- Why a command fails. -/
inductive Failure where
  /-- An error, which may have come up during something that is named. -/
  | output (during : Option String) (error : OutputError)
  /-- The document was examined and has errors. -/
  | refused
deriving DecidableEq

namespace Failure

/-- The message of a failure and those of its causes, the nearest cause first. -/
def messages : Failure → String × List String
  | output none error => (error.message, error.causes)
  | output (some during) error => (during, error.message :: error.causes)
  | refused => ("The generated document has errors and would not be written", [])

/-- A cause behind a label, with its further lines as far to the right. -/
def indented (label cause : String) : String :=
  let margin := "\n" ++ String.ofList (List.replicate label.length ' ')
  label ++ cause.replace "\n" margin

/-- The label of a numbered cause. -/
def numberLabel (number : Nat) : String :=
  let digits := toString number
  String.ofList (List.replicate (5 - digits.length) ' ') ++ digits ++ ": "

/-- The causes, one below the other. -/
def causeLines : List String → List String
  | [] => []
  | [cause] => [indented "    " cause]
  | causes => causes.mapIdx fun number cause => indented (numberLabel number) cause

/-- What a user reads about a failure. -/
def report (failure : Failure) : String :=
  let (message, causes) := failure.messages
  let heading : List String := if causes.isEmpty then [] else ["", "Caused by:"]
  String.intercalate "\n" (("Error: " ++ message) :: heading ++ causeLines causes) ++ "\n"

end Failure

end KeyLayers.Cli
