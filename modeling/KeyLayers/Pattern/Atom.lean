import KeyLayers.Pattern.Property
import KeyLayers.Text.Character

/-!
# Atoms of a pattern

An atom stands for one character, a set of characters, or a place between
characters.  Apart from the dot, every atom that is no plain character begins
with a backslash.  In the spaced mode blanks and comments may stand between the
signs of a pattern, and `skip` passes over them.
-/

namespace KeyLayers.Pattern

open Text (isBlank hexValue? hexNumber? scalar?)

/-- How the signs of a pattern are to be read. -/
structure Mode where
  /-- Blanks and comments are passed over. -/
  spaced : Bool := false
  /-- Sets of characters are those of Unicode, else those of ASCII. -/
  unicode : Bool := true

/-- A set of characters with a letter of its own. -/
inductive Family where
  | digit
  | space
  | word

/-- What stands for a character, for a set of them or for a place. -/
inductive Atom where
  /-- One character; `octet` if it is written by two hexadecimal digits. -/
  | literal (c : Char) (octet : Bool)
  | family (family : Family) (negated : Bool)
  | property
  | place

/-- Passes over blanks and comments, the latter up to the end of the line. -/
def skipBlanks (inComment : Bool) : List Char → List Char
  | [] => []
  | c :: rest =>
      if inComment then skipBlanks (c != '\n') rest
      else if isBlank c then skipBlanks false rest
      else if c = '#' then skipBlanks true rest
      else c :: rest

/-- Passes over what the mode allows between signs. -/
def skip (mode : Mode) (text : List Char) : List Char :=
  if mode.spaced then skipBlanks false text else text

theorem length_skipBlanks_le (inComment : Bool) (text : List Char) :
    (skipBlanks inComment text).length ≤ text.length := by
  induction text generalizing inComment with
  | nil => simp [skipBlanks]
  | cons c rest ih =>
      unfold skipBlanks
      have := ih false
      have := ih true
      have := ih (c != '\n')
      split
      · simp; omega
      · split
        · simp; omega
        · split
          · simp; omega
          · simp

theorem length_skip_le (mode : Mode) (text : List Char) :
    (skip mode text).length ≤ text.length := by
  unfold skip
  split
  · exact length_skipBlanks_le false text
  · exact Nat.le_refl _

/-! ## Escapes -/

/-- The signs up to a closing brace, and what follows the brace. -/
def untilBrace (mode : Mode) (text : List Char) : Option (List Char × List Char) :=
  match next : skip mode text with
  | [] => none
  | c :: rest =>
      have shorter : rest.length < text.length := by
        have := length_skip_le mode text
        simp [next] at this
        omega
      if c = '\x7d' then some ([], rest)
      else (untilBrace mode rest).map fun (signs, left) => (c :: signs, left)
termination_by text.length

/-- Reads a given number of hexadecimal digits. -/
def hexDigits? (mode : Mode) : Nat → List Char → Option (List Char × List Char)
  | 0, text => some ([], text)
  | _ + 1, [] => none
  | count + 1, c :: rest =>
      if (hexValue? c).isSome then
        (hexDigits? mode count (skip mode rest)).map fun (signs, left) => (c :: signs, left)
      else none

/-- The character with a code point in hexadecimal. -/
def hexScalar? (digits : List Char) : Option Char :=
  if digits.isEmpty then none else (hexNumber? 0 digits).bind scalar?

/-- Reads a code point, of a fixed number of digits or between braces. -/
def readCode (mode : Mode) (count : Nat) (text : List Char) : Option (Atom × List Char) :=
  match skip mode text with
  | '\x7b' :: rest => do
      let (digits, left) ← untilBrace mode rest
      return (.literal (← hexScalar? digits) false, skip mode left)
  | start => do
      let (digits, left) ← hexDigits? mode count start
      return (.literal (← hexScalar? digits) (count == 2), left)

/-- Reads the name of a property: one letter, or a text between braces. -/
def readProperty (mode : Mode) (text : List Char) : Option (Atom × List Char) :=
  match skip mode text with
  | '\x7b' :: rest => do
      let (name, left) ← untilBrace mode rest
      if isQuery name then return (.property, left) else none
  | c :: rest =>
      if c != '\\' && isProperty [c] then some (.property, skip mode rest) else none
  | [] => none

/-- The words that may follow a word boundary between braces. -/
def boundaryWords : List String :=
  ["start", "end", "start-half", "end-half"]

/--
Reads what follows the sign of a word boundary.

Braces that do not begin with a letter or a hyphen belong to a repetition.
-/
def readBoundary (mode : Mode) (text : List Char) : Option (Atom × List Char) :=
  match text with
  | '\x7b' :: rest =>
      match skip mode rest with
      | [] => none
      | c :: _ =>
          if c.isAlpha || c == '-' then do
            let (word, left) ← untilBrace mode rest
            if boundaryWords.contains (String.ofList word) then return (.place, left)
            else none
          else some (.place, text)
  | _ => some (.place, text)

/-- Whether a sign stands for itself after a backslash. -/
def isEscapable (c : Char) : Bool :=
  c.toNat < 128 && !c.isAlphanum && c != '<' && c != '>'

/-- The control character that a letter after a backslash stands for. -/
def controlOf? : Char → Option Char
  | 'a' => some '\x07'
  | 'f' => some '\x0c'
  | 't' => some '\x09'
  | 'n' => some '\x0a'
  | 'r' => some '\x0d'
  | 'v' => some '\x0b'
  | _ => none

/-- Reads what follows a backslash. -/
def readEscape (mode : Mode) : List Char → Option (Atom × List Char)
  | [] => none
  | 'x' :: rest => readCode mode 2 rest
  | 'u' :: rest => readCode mode 4 rest
  | 'U' :: rest => readCode mode 8 rest
  | 'p' :: rest | 'P' :: rest => readProperty mode rest
  | 'd' :: rest => some (.family .digit false, rest)
  | 'D' :: rest => some (.family .digit true, rest)
  | 's' :: rest => some (.family .space false, rest)
  | 'S' :: rest => some (.family .space true, rest)
  | 'w' :: rest => some (.family .word false, rest)
  | 'W' :: rest => some (.family .word true, rest)
  | 'b' :: rest => readBoundary mode rest
  | 'A' :: rest | 'z' :: rest | 'B' :: rest | '<' :: rest | '>' :: rest => some (.place, rest)
  | c :: rest =>
      if isEscapable c then some (.literal c false, rest)
      else (controlOf? c).map fun control => (.literal control false, rest)

/-- Reads one character of a class, or an escape. -/
def readSign (mode : Mode) : List Char → Option (Atom × List Char)
  | [] => none
  | '\\' :: rest => readEscape mode rest
  | c :: rest => some (.literal c false, rest)

end KeyLayers.Pattern
