import KeyLayers.Notation.Error

/-!
# Steps of the grammar

The grammars of leaves, chords and input sources are built from a few steps on
lists of characters: a fixed word at the beginning, a run of spaces and tabs,
and the segments between separators.

A leaf and an input source both are a word, a sign and an argument
(`taggedArgument`); they differ in the words, in the sign and in what is made of
the argument.
-/

namespace KeyLayers.Notation

/-- What follows a word at the beginning of a text. -/
def after? : List Char → List Char → Option (List Char)
  | [], text => some text
  | c :: word, d :: text => if c = d then after? word text else none
  | _ :: _, [] => none

/-- The text after any spaces and tabs. -/
def skipInline (text : List Char) : List Char :=
  text.dropWhile fun c => c == ' ' || c == '\t'

/-- The texts before, between and after the separators; there is at least one. -/
def segments (separator : Char) : List Char → List (List Char)
  | [] => [[]]
  | c :: rest =>
      if c = separator then [] :: segments separator rest
      else
        match segments separator rest with
        | [] => [[c]]
        | first :: others => (c :: first) :: others

/-- The first word that a text begins with, and what follows it. -/
def firstWord? {α : Type} (words : List (String × α)) (text : List Char) :
    Option (α × List Char) :=
  words.findSome? fun (word, meaning) =>
    (after? word.toList text).map (meaning, ·)

/-! ## A word, a sign and an argument -/

/-- Reads a word and the sign behind it; what is left has no spaces and tabs in front. -/
def parseTagged {α : Type} (words : List (String × α)) (sign : Char) (text : String) :
    Except Mismatch (α × String) :=
  match firstWord? words text.toList with
  | none => .error ⟨text, .tag⟩
  | some (meaning, rest) =>
      match after? [sign] (skipInline rest) with
      | some argument => .ok (meaning, String.ofList (skipInline argument))
      | none => .error ⟨String.ofList (skipInline rest), .char⟩

/-- Reads a word and an argument, which is what is behind the sign without the blanks around it. -/
def taggedArgument {α : Type} (words : List (String × α)) (sign : Char)
    (reason : Mismatch → SyntaxReason) (input : String) : Except LeafError (α × String) := do
  let (meaning, rest) ← (parseTagged words sign (Text.trim input)).mapError
    (.invalidSyntax input <| reason ·)
  let argument := Text.trim rest
  if argument.isEmpty then throw (.emptyArgument input)
  return (meaning, argument)

theorem after?_eq_some_iff {word text rest : List Char} :
    after? word text = some rest ↔ text = word ++ rest := by
  induction word generalizing text with
  | nil => simp [after?, eq_comm]
  | cons c word ih =>
      cases text with
      | nil => simp [after?]
      | cons d text =>
          by_cases same : c = d
          · subst same
            simp [after?, ih]
          · simp [after?, same, Ne.symm same]

end KeyLayers.Notation
