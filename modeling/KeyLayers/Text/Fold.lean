import KeyLayers.Text.Character

/-!
# Names without letter case

Every name and argument that an author writes is trimmed of blanks on both sides
before it is looked at, so `trim` is the first step of each notation.

Key names, modifier names and group names are compared without regard to
letter case and to blanks at either end.  Every name of the vocabulary is
written in lower-case ASCII letters, digits, underscores and a few signs, so
only the characters whose lower-case form is an ASCII letter matter: the
twenty-six capital letters and the Kelvin sign.
-/

namespace KeyLayers.Text

/-! ## Trimming -/

/-- Removes the longest final segment whose characters all satisfy `p`. -/
def dropTrailing (p : Char → Bool) (text : List Char) : List Char :=
  (text.reverse.dropWhile p).reverse

/-- Removes the blanks at both ends of a list of characters. -/
def trimBlanks (text : List Char) : List Char :=
  dropTrailing isBlank (text.dropWhile isBlank)

/-- Removes the blanks at both ends of a text. -/
def trim (text : String) : String :=
  String.ofList (trimBlanks text.toList)

@[simp]
theorem toList_trim (text : String) :
    (trim text).toList = trimBlanks text.toList := by
  simp [trim]

/-! ## Folding -/

/--
The lower-case form of a character, as far as it is an ASCII letter.

Any other character stays as it is; none of those occurs in a vocabulary.
-/
def foldChar (c : Char) : Char :=
  if c == '\u212a' then 'k' else c.toLower

/-- The form in which names are compared: trimmed, then folded. -/
def fold (name : String) : String :=
  String.ofList ((trimBlanks name.toList).map foldChar)

end KeyLayers.Text
