import KeyLayers.Chord
import KeyLayers.Notation.Error
import KeyLayers.Notation.Scan

/-!
# Chord notation

A chord is written as tokens joined by plus signs.  The last token is the key;
each earlier one is a modifier or the name of a group of modifiers.
-/

namespace KeyLayers.Notation

/--
The leading tokens of a text, and what is left from the first plus sign that no
token follows.
-/
def chordTokens (text : String) : Except Mismatch (List String × String) :=
  let parts := segments '+' text.toList
  let tokens := parts.takeWhile (!·.isEmpty)
  let left := (parts.dropWhile (!·.isEmpty)).flatMap ('+' :: ·)
  if tokens.isEmpty then .error ⟨text, .takeWhile1⟩
  else .ok (tokens.map String.ofList, String.ofList left)

/-- The modifiers that one token before the key stands for. -/
def chordModifiers (token : String) : Except LeafError (List Modifier) :=
  match Modifier.group? token with
  | some group => .ok group
  | none =>
      match Modifier.parse token with
      | .error error => .error (.name error)
      | .ok .any => .error (.modifierNotEmittable .any)
      | .ok modifier => .ok [modifier]

/-- Reads a chord. -/
def parseChord (input : String) : Except LeafError Chord := do
  let (tokens, rest) ← (chordTokens (Text.trim input)).mapError
    (.invalidSyntax input <| .noChord ·)
  unless rest.isEmpty do
    throw (.invalidSyntax input (.trailing rest))
  match tokens.getLast? with
  | none => throw (.emptyArgument input)
  | some key =>
      let modifiers ← tokens.dropLast.mapM chordModifiers
      let key ← (Key.parse key).mapError .name
      return Chord.of key modifiers.flatten

end KeyLayers.Notation
