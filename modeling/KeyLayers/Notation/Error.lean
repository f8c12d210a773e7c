import KeyLayers.Modifier
import KeyLayers.Text.Quoted

/-!
# Errors of the leaf notation

A grammar rule that does not apply leaves a `Mismatch`: what it looked for, and
the input that was left where it looked.  `LeafError` is what an author gets to
see about a leaf.
-/

namespace KeyLayers

/-- What a grammar rule looked for. -/
inductive Expected where
  /-- One of some words. -/
  | tag
  /-- One certain character. -/
  | char
  /-- At least one character of a class. -/
  | takeWhile1
deriving DecidableEq, Repr

/-- A grammar rule that did not apply. -/
structure Mismatch where
  /-- The input left at the place of the failure. -/
  input : String
  expected : Expected
deriving DecidableEq, Repr

/-- The name of what was looked for. -/
def Expected.name : Expected → String
  | .tag => "Tag"
  | .char => "Char"
  | .takeWhile1 => "TakeWhile1"

/-- The input and what was looked for, as error texts show them. -/
def Mismatch.message (mismatch : Mismatch) : String :=
  "Error(Error \x7b input: " ++ Text.quoted mismatch.input ++ ", code: " ++
    mismatch.expected.name ++ " \x7d)"

/-- Why a text is not of the expected form. -/
inductive SyntaxReason where
  /-- It does not begin with the kind of a leaf. -/
  | noKind (mismatch : Mismatch)
  /-- It is not a chord. -/
  | noChord (mismatch : Mismatch)
  /-- It goes on after the end of a chord. -/
  | trailing (rest : String)
  /-- It does not begin with a field of an input source. -/
  | noField (mismatch : Mismatch)
deriving DecidableEq, Repr

/-- The reason in words. -/
def SyntaxReason.message : SyntaxReason → String
  | .noKind mismatch =>
      "expected app:, open:, shell:, key:, input: or layer: (" ++ mismatch.message ++ ")"
  | .noChord mismatch => mismatch.message
  | .trailing rest => s!"unexpected trailing input '{rest}'"
  | .noField mismatch => "expected id=, lang= or mode= (" ++ mismatch.message ++ ")"

/-- Why a leaf could not be read. -/
inductive LeafError where
  | invalidSyntax (input : String) (reason : SyntaxReason)
  | emptyArgument (input : String)
  | modifierNotEmittable (modifier : Modifier)
  | name (error : NameError)
deriving DecidableEq, Repr

/-- What an author reads about a leaf that could not be read. -/
def LeafError.message : LeafError → String
  | .invalidSyntax input reason => s!"Cannot parse binding '{input}': {reason.message}"
  | .emptyArgument input => s!"Binding '{input}' has an empty argument"
  | .modifierNotEmittable modifier =>
      s!"Modifier '{modifier.name}' cannot be emitted, only matched"
  | .name error => error.message

end KeyLayers
