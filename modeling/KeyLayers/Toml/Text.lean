import KeyLayers.Toml.Draft
import KeyLayers.Toml.Quoted
import KeyLayers.Toml.Scalar

/-!
# TOML text

A text is read line by line into statements, which are then put together.  A
value may go on over several lines; it is read with a stack of the arrays and
tables that are still open.
-/

namespace KeyLayers.Toml

/-! ## Spaces and comments -/

/-- The text after any spaces and tabs. -/
def skipSpaces (text : List Char) : List Char :=
  text.dropWhile isLineBlank

/-- What is left of a comment, from the end of its line on. -/
def afterComment? (text : List Char) : Option (List Char) :=
  let left := text.dropWhile isPrintable
  if left.isEmpty || (afterBreak? left).isSome then some left else none

/-- What follows the end of a line, on which a comment may stand. -/
def endLine? (text : List Char) : Option (List Char) :=
  let left : Option (List Char) :=
    match skipSpaces text with
    | '#' :: rest => afterComment? rest
    | rest => some rest
  left.bind fun left => if left.isEmpty then some [] else afterBreak? left

/--
The text after any spaces, line breaks and comments.

Each step passes over a line break; the guard on the lengths makes that plain.
-/
def skipGap? (text : List Char) : Option (List Char) :=
  match skipSpaces text with
  | c :: rest =>
      if c == '#' || c == '\n' || c == '\r' then
        (endLine? (c :: rest)).bind fun left =>
          if left.length < text.length then skipGap? left else none
      else some (c :: rest)
  | [] => some []
termination_by text.length

/-! ## Keys -/

/-- Whether a character may stand in a key without quotes. -/
def isKeyChar (c : Char) : Bool :=
  c.isAlphanum || c == '_' || c == '-'

/-- Reads one part of a key. -/
def keyPart? (text : List Char) : Option (String × List Char) :=
  match text with
  | '"' :: rest => (basicString? rest).map fun (signs, left) => (String.ofList signs, left)
  | '\'' :: rest => (literalString? rest).map fun (signs, left) => (String.ofList signs, left)
  | _ =>
      let name := text.takeWhile isKeyChar
      if name.isEmpty then none else some (String.ofList name, text.dropWhile isKeyChar)

/-- Reads the parts of a key, with a dot between them. -/
def key? (text : List Char) : Option (List String × List Char) := do
  let (part, left) ← keyPart? (skipSpaces text)
  match skipSpaces left with
  | '.' :: rest =>
      if rest.length < text.length then do
        let (path, left) ← key? rest
        return (part :: path, left)
      else none
  | left => return ([part], left)
termination_by text.length

/-- Reads a key and its equals sign. -/
def assignedKey? (text : List Char) : Option (List String × List Char) := do
  let (path, left) ← key? text
  match left with
  | '=' :: rest => return (path, skipSpaces rest)
  | _ => none

/-! ## Values -/

/-- Whether a character may stand in a value without quotes. -/
def isBareChar (c : Char) : Bool :=
  c.isAlphanum || c == '+' || c == '-' || c == '.' || c == '_' || c == ':'

/-- Whether a text goes on with a time of day after a space. -/
def startsTime : List Char → Bool
  | ' ' :: c :: _ => c.isDigit
  | _ => false

/-- Reads a value without quotes; a date may be followed by a space and a time. -/
def bare? (text : List Char) : Option (Toml × List Char) :=
  let word := text.takeWhile isBareChar
  let left := text.dropWhile isBareChar
  if (takeDate? word).any (·.2.isEmpty) && startsTime left then
    let time := (left.drop 1).takeWhile isBareChar
    (ofBare? (word ++ ' ' :: time)).map (·, (left.drop 1).dropWhile isBareChar)
  else (ofBare? word).map (·, left)

/-- Reads a value that has no parts. -/
def scalar? (text : List Char) : Option (Toml × List Char) :=
  match text with
  | '"' :: rest => (string? '"' rest).map fun (text, left) => (.str text, left)
  | '\'' :: rest => (string? '\'' rest).map fun (text, left) => (.str text, left)
  | _ => bare? text

/-- An array or a table that is still open. -/
inductive Frame where
  | items (before : List Toml)
  /-- A table: its assignments so far, and the key of the next one. -/
  | members (before : List Statement) (path : List String)

/-- What has been read of a value. -/
inductive Progress where
  /-- A value is to follow. -/
  | value
  /-- An array has been opened or continued. -/
  | item
  /-- A value has been read. -/
  | after (value : Toml)

/-- The next stage of reading a value, and the text that is left. -/
abbrev Stage := List Frame × Progress × List Char

/-- Begins a value, or reads it if it has no parts. -/
def beginValue? (stack : List Frame) (text : List Char) : Option Stage :=
  match text with
  | '[' :: rest => some (.items [] :: stack, .item, rest)
  | '\x7b' :: rest =>
      match skipSpaces rest with
      | '\x7d' :: left => some (stack, .after (.table []), left)
      | start => (assignedKey? start).map fun (path, left) =>
          (.members [] path :: stack, .value, left)
  | _ => (scalar? text).map fun (value, left) => (stack, .after value, left)

/-- Goes on after a value inside an array or a table. -/
def continueValue? (frame : Frame) (stack : List Frame) (value : Toml) (text : List Char) :
    Option Stage :=
  match frame with
  | .items before =>
      (skipGap? text).bind fun
        | ',' :: rest => some (.items (value :: before) :: stack, .item, rest)
        | ']' :: rest => some (stack, .after (.array (value :: before).reverse), rest)
        | _ => none
  | .members before path =>
      let before := .assign path value :: before
      match skipSpaces text with
      | ',' :: rest => (assignedKey? rest).map fun (path, left) =>
          (.members before path :: stack, .value, left)
      | '\x7d' :: rest => (ofStatements? before.reverse).map fun members =>
          (stack, .after (.table members), rest)
      | _ => none

/-- One stage of reading a value that is not complete yet. -/
def stage? (stack : List Frame) (progress : Progress) (text : List Char) : Option Stage :=
  match progress, stack with
  | .value, _ => beginValue? stack text
  | .item, .items before :: outer =>
      (skipGap? text).bind fun
        | ']' :: rest => some (outer, .after (.array before.reverse), rest)
        | start => beginValue? stack start
  | .after value, frame :: outer => continueValue? frame outer value text
  | _, _ => none

/--
Reads on until a value is complete.

Each stage reads at least one character; the guard on the lengths makes that
plain.
-/
def readValue? (stack : List Frame) (progress : Progress) (text : List Char) :
    Option (Toml × List Char) :=
  match stack, progress with
  | [], .after value => some (value, text)
  | _, _ =>
      (stage? stack progress text).bind fun (stack, progress, left) =>
        if left.length < text.length then readValue? stack progress left else none
termination_by text.length

/-! ## Statements -/

/-- Reads a statement that begins a line. -/
def statement? (text : List Char) : Option (Statement × List Char) :=
  match text with
  | '[' :: '[' :: rest => do
      let (path, left) ← key? rest
      match left with
      | ']' :: ']' :: left => return (.itemHeader path, left)
      | _ => none
  | '[' :: rest => do
      let (path, left) ← key? rest
      match left with
      | ']' :: left => return (.header path, left)
      | _ => none
  | _ => do
      let (path, left) ← assignedKey? text
      let (value, left) ← readValue? [] .value left
      return (.assign path value, left)

/-- Reads the statements of a document, each of which ends its line. -/
def statements? (text : List Char) : Option (List Statement) :=
  (skipGap? text).bind fun
    | [] => some []
    | start => do
        let (statement, left) ← statement? start
        let left ← endLine? left
        if left.length < text.length then
          return statement :: (← statements? left)
        else none
termination_by text.length

/-- The table that a text describes; a byte order mark at its beginning does not count. -/
def ofText? (text : String) : Option (Members Toml) :=
  let start := match text.toList with
    | '\ufeff' :: rest => rest
    | start => start
  (statements? start).bind ofStatements?

end KeyLayers.Toml
