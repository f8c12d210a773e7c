import KeyLayers.Text.Character

/-!
# TOML strings

A string stands between double quotes, where a backslash begins an escape, or
between single quotes, where every character stands for itself.  Between three
quotes of a kind it may go on over several lines; a line break right after the
opening quotes does not count, and up to two quotes may come before the closing
ones.
-/

namespace KeyLayers.Toml

open Text (hexValue? hexNumber? scalar?)

/-- Whether a character may stand in a string on one line. -/
def isPrintable (c : Char) : Bool :=
  c == '\t' || (' ' ≤ c && c != '\x7f')

/-- The text after a line break, if it begins with one. -/
def afterBreak? : List Char → Option (List Char)
  | '\n' :: rest => some rest
  | '\r' :: '\n' :: rest => some rest
  | _ => none

/-- The character that a one-letter escape stands for. -/
def escape? : Char → Option Char
  | 'b' => some '\x08'
  | 't' => some '\t'
  | 'n' => some '\n'
  | 'f' => some '\x0c'
  | 'r' => some '\r'
  | '"' => some '"'
  | '\\' => some '\\'
  | _ => none

/-- The character with a code point of hexadecimal digits. -/
def codePoint? (digits : List Char) : Option Char :=
  (hexNumber? 0 digits).bind scalar?

/-- Reads what follows a backslash: the character, and what is left. -/
def takeEscape? : List Char → Option (Char × List Char)
  | 'u' :: a :: b :: c :: d :: rest => (codePoint? [a, b, c, d]).map (·, rest)
  | 'U' :: a :: b :: c :: d :: e :: f :: g :: h :: rest =>
      (codePoint? [a, b, c, d, e, f, g, h]).map (·, rest)
  | c :: rest => (escape? c).map (·, rest)
  | [] => none

theorem length_of_takeEscape? {text rest : List Char} {c : Char}
    (found : takeEscape? text = some (c, rest)) : rest.length < text.length := by
  unfold takeEscape? at found
  split at found
  all_goals
    simp only [Option.map_eq_some_iff, Prod.mk.injEq, reduceCtorEq] at found
  all_goals
    obtain ⟨sign, -, -, rfl⟩ := found
    simp
    try omega

/-- Reads a string between double quotes, after its opening quote. -/
def basicString? (text : List Char) : Option (List Char × List Char) :=
  match text with
  | [] => none
  | '"' :: rest => some ([], rest)
  | '\\' :: rest =>
      match found : takeEscape? rest with
      | none => none
      | some (c, left) =>
          have := length_of_takeEscape? found
          (basicString? left).map fun (signs, left) => (c :: signs, left)
  | c :: rest =>
      if isPrintable c then (basicString? rest).map fun (signs, left) => (c :: signs, left)
      else none
termination_by text.length
decreasing_by all_goals simp; try omega

/-- Reads a string between single quotes, after its opening quote. -/
def literalString? : List Char → Option (List Char × List Char)
  | [] => none
  | '\'' :: rest => some ([], rest)
  | c :: rest =>
      if isPrintable c then (literalString? rest).map fun (signs, left) => (c :: signs, left)
      else none

/-- Reads a string on one line, after its opening quote. -/
def line? (quote : Char) (text : List Char) : Option (List Char × List Char) :=
  if quote = '"' then basicString? text else literalString? text

/-- Whether a character may stand between the lines of a text. -/
def isLineBlank (c : Char) : Bool :=
  c == ' ' || c == '\t'

/-- What follows a backslash at the end of a line, after all blanks. -/
def afterLineEnd? (text : List Char) : Option (List Char) :=
  (afterBreak? (text.dropWhile isLineBlank)).map fun rest =>
    rest.dropWhile fun c => isLineBlank c || c == '\n' || c == '\r'

theorem length_of_afterBreak? {text rest : List Char} (found : afterBreak? text = some rest) :
    rest.length < text.length := by
  unfold afterBreak? at found
  split at found <;> cases found <;> simp only [List.length_cons] <;> omega

theorem length_of_afterLineEnd? {text rest : List Char}
    (found : afterLineEnd? text = some rest) : rest.length < text.length := by
  simp only [afterLineEnd?, Option.map_eq_some_iff] at found
  obtain ⟨next, broken, rfl⟩ := found
  have := length_of_afterBreak? broken
  have := (List.dropWhile_suffix (l := text) isLineBlank).length_le
  have := (List.dropWhile_suffix (l := next)
    fun c => isLineBlank c || c == '\n' || c == '\r').length_le
  omega

/-- The quotes that belong to a text although three more close it. -/
def trailingQuotes (quote : Char) : List Char → List Char × List Char
  | c :: d :: rest =>
      if c = quote ∧ d = quote then ([quote, quote], rest)
      else if c = quote then ([quote], d :: rest)
      else ([], c :: d :: rest)
  | [c] => if c = quote then ([quote], []) else ([], [c])
  | [] => ([], [])

/-- Reads a string of several lines, after its three opening quotes. -/
def lines? (quote : Char) (text : List Char) : Option (List Char × List Char) :=
  match text with
  | [] => none
  | c :: rest =>
      if c = quote ∧ rest.take 2 = [quote, quote] then
        some (trailingQuotes quote (rest.drop 2))
      else if c = '\\' ∧ quote = '"' then
        match skipped : afterLineEnd? rest with
        | some left =>
            have := length_of_afterLineEnd? skipped
            lines? quote left
        | none =>
            match found : takeEscape? rest with
            | some (sign, left) =>
                have := length_of_takeEscape? found
                (lines? quote left).map fun (signs, left) => (sign :: signs, left)
            | none => none
      else if isPrintable c || c == '\n' || (c == '\r' && rest.head? == some '\n') then
        (lines? quote rest).map fun (signs, left) => (c :: signs, left)
      else none
termination_by text.length
decreasing_by all_goals simp; try omega

/-- Reads any string, after the first of its opening quotes. -/
def string? (quote : Char) (text : List Char) : Option (String × List Char) :=
  let found :=
    if text.take 2 = [quote, quote] then
      let start := text.drop 2
      lines? quote ((afterBreak? start).getD start)
    else line? quote text
  found.map fun (signs, left) => (String.ofList signs, left)

end KeyLayers.Toml
