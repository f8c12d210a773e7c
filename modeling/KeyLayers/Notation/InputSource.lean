import KeyLayers.Event
import KeyLayers.Notation.Error
import KeyLayers.Notation.Scan

/-!
# Input source notation

An input source is written as one field, an equals sign and a pattern.
-/

namespace KeyLayers.Notation

/-- The field of a selector that a pattern is for. -/
inductive InputField where
  | sourceId
  | language
  | mode
deriving DecidableEq, Repr

/-- The words for the fields, a longer one before its own beginning. -/
def fieldWords : List (String × InputField) :=
  [("id", .sourceId), ("language", .language), ("lang", .language), ("mode", .mode)]

/-- Reads a field and its equals sign; the pattern is what is left. -/
def parseField (text : String) : Except Mismatch (InputField × String) :=
  parseTagged fieldWords '=' text

/-- The selector with one pattern. -/
def InputField.selector (field : InputField) (pattern : String) : InputSource :=
  match field with
  | .sourceId => { sourceId := some pattern }
  | .language => { language := some pattern }
  | .mode => { mode := some pattern }

/-- Reads an input source. -/
def parseInputSource (input : String) : Except LeafError InputSource := do
  let (field, pattern) ← taggedArgument fieldWords '=' .noField input
  return field.selector pattern

end KeyLayers.Notation
