import KeyLayers.Event

/-!
# Actions

An action is what a leaf of the layer tree does.  `Action.encode` gives the
events that perform it, and `Action.describe` a text for the author.

Some actions are commands of a POSIX shell.  A word is passed to it either as it
is, if it has only characters that no shell treats specially, or between single
quotes.  Between single quotes every character stands for itself, so a quote
inside the word is written by closing the quotes, escaping one quote, and
opening them again.
-/

namespace KeyLayers

/-! ## Words of a shell command -/

namespace Shell

/-- A word between single quotes. -/
def singleQuote (word : String) : String :=
  let body := word.toList.flatMap fun c =>
    if c = '\'' then ['\'', '\\', '\'', '\''] else [c]
  String.ofList ('\'' :: body ++ ['\''])

/-- The characters that are taken to need no quotes. -/
def isPlain (c : Char) : Bool :=
  c.isAlphanum || ['-', '_', '.', '/', ':', '=', '@', '%', '+', ',', '~', '#'].contains c

/-- A word as it is if it is plain, else between single quotes. -/
def quoteIfNeeded (word : String) : String :=
  if word.toList.all isPlain then word else singleQuote word

end Shell

/-! ## Actions -/

/-- The effect of a leaf. -/
inductive Action where
  | sendChord (chord : Chord)
  | runShell (command : String)
  | openTarget (target : String)
  | launchApp (name : String)
  | selectInput (source : InputSource)
deriving DecidableEq

namespace Action

/-- The events that perform an action. -/
def encode : Action → List Event
  | sendChord chord => [Event.chord chord.key chord.modifiers]
  | runShell command => [Event.shell command]
  | openTarget target => [Event.shell ("open " ++ Shell.quoteIfNeeded target)]
  | launchApp name => [Event.shell ("open -a " ++ Shell.singleQuote (name ++ ".app"))]
  | selectInput source => [Event.select source]

/-- What an action does, in a few words. -/
def describe : Action → String
  | sendChord chord => "Send " ++ chord.display
  | runShell command => command
  | openTarget target => "Open " ++ target
  | launchApp name => "Launch " ++ name
  | selectInput source => "Select input source " ++ source.display

end Action

end KeyLayers
