import KeyLayers.Layer
import KeyLayers.Notation.Chord
import KeyLayers.Notation.InputSource

/-!
# Leaf notation

A leaf is written as a kind, a colon and an argument.  The argument is the rest
of the text without the blanks around it, further colons included.
-/

namespace KeyLayers.Notation

/-- What the word before the colon says. -/
inductive LeafKind where
  | app
  | openTarget
  | shell
  | key
  | input
  | layer
deriving DecidableEq, Repr

/-- The words for the kinds. -/
def kindWords : List (String × LeafKind) :=
  [("app", .app), ("open", .openTarget), ("shell", .shell), ("key", .key),
    ("input", .input), ("layer", .layer)]

/-- Reads a kind and its colon; the argument is what is left. -/
def parseKind (text : String) : Except Mismatch (LeafKind × String) :=
  parseTagged kindWords ':' text

/-- The node of a kind with its argument. -/
def leafNode (kind : LeafKind) (argument : String) : Except LeafError LayerNode :=
  match kind with
  | .app => .ok (.action (.launchApp argument))
  | .openTarget => .ok (.action (.openTarget argument))
  | .shell => .ok (.action (.runShell argument))
  | .key => (parseChord argument).map fun chord => .action (.sendChord chord)
  | .input => (parseInputSource argument).map fun source => .action (.selectInput source)
  | .layer => .ok (.reference argument)

/-- Reads a leaf. -/
def parseLeaf (input : String) : Except LeafError LayerNode := do
  let (kind, argument) ← taggedArgument kindWords ':' .noKind input
  leafNode kind argument

end KeyLayers.Notation
