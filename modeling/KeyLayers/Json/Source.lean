import KeyLayers.Json.Numeral
import KeyLayers.Text.Character

/-!
# JSON text

A `Source` is the structure of a JSON text before numerals and strings are
given a value: it exists for every text that follows the grammar.  The text is
read from left to right with a stack of the arrays and objects that are still
open, so each step consumes at least one character.

`Source.eval?` then gives the value.  It fails on a numeral that is too large,
on half of a surrogate pair, and on arrays and objects nested too deeply.  A
part of a text that nobody asks for can be left out by `Source.prune` before.
-/

namespace KeyLayers.Json

open Text (digitValue hexValue?)

/-- The structure of a JSON text. -/
inductive Source where
  | null
  | bool (value : Bool)
  | number (numeral : Numeral)
  /-- A string; `none` if its escapes denote no text. -/
  | string (text : Option String)
  | array (items : List Source)
  | object (members : List (Option String × Source))

/-! ## Scalars -/

/-- The characters that may stand between tokens. -/
def isSpace (c : Char) : Bool :=
  c == ' ' || c == '\n' || c == '\r' || c == '\t'

/-- The value of four hexadecimal digits. -/
def fourHex? (a b c d : Char) : Option Nat := do
  let a ← hexValue? a
  let b ← hexValue? b
  let c ← hexValue? c
  let d ← hexValue? d
  return ((a * 16 + b) * 16 + c) * 16 + d

/-- The character that a one-letter escape stands for. -/
def escape? : Char → Option Nat
  | '"' => some 0x22
  | '\\' => some 0x5c
  | '/' => some 0x2f
  | 'b' => some 0x08
  | 'f' => some 0x0c
  | 'n' => some 0x0a
  | 'r' => some 0x0d
  | 't' => some 0x09
  | _ => none

/-- Reads the rest of a string up to its closing quote, as code units. -/
def scanString : List Char → Option (List Nat × List Char)
  | '"' :: rest => some ([], rest)
  | '\\' :: 'u' :: a :: b :: c :: d :: rest =>
      match fourHex? a b c d, scanString rest with
      | some unit, some (units, left) => some (unit :: units, left)
      | _, _ => none
  | '\\' :: c :: rest =>
      match escape? c, scanString rest with
      | some unit, some (units, left) => some (unit :: units, left)
      | _, _ => none
  | c :: rest =>
      if c < ' ' ∨ c = '\\' then none
      else
        match scanString rest with
        | some (units, left) => some (c.toNat :: units, left)
        | none => none
  | [] => none

/-- Joins surrogate pairs; a surrogate on its own denotes no character. -/
def joinUnits : List Nat → Option (List Char)
  | [] => some []
  | [unit] =>
      if 0xd800 ≤ unit ∧ unit < 0xe000 then none else some [Char.ofNat unit]
  | high :: low :: rest =>
      if 0xd800 ≤ high ∧ high < 0xdc00 then
        if 0xdc00 ≤ low ∧ low < 0xe000 then
          (joinUnits rest).map
            (Char.ofNat (0x10000 + (high - 0xd800) * 0x400 + (low - 0xdc00)) :: ·)
        else none
      else if 0xdc00 ≤ high ∧ high < 0xe000 then none
      else (joinUnits (low :: rest)).map (Char.ofNat high :: ·)

/-- The text of a string, if its units form one. -/
def textOf (units : List Nat) : Option String :=
  (joinUnits units).map String.ofList

/-- Splits off a run of digits. -/
def takeDigits (text : List Char) : List Nat × List Char :=
  ((text.takeWhile Char.isDigit).map digitValue, text.dropWhile Char.isDigit)

/-- Splits off the sign of an exponent: whether it is negative. -/
def takeSign : List Char → Bool × List Char
  | '+' :: rest => (false, rest)
  | '-' :: rest => (true, rest)
  | rest => (false, rest)

/-- Reads the exponent of a numeral, if one follows. -/
def scanExponent : List Char → Option (Option (Bool × List Nat) × List Char)
  | c :: rest =>
      if c = 'e' ∨ c = 'E' then
        let sign := takeSign rest
        let digits := takeDigits sign.2
        if digits.1.isEmpty then none else some (some (sign.1, digits.1), digits.2)
      else some (none, c :: rest)
  | [] => some (none, [])

/-- Reads the fraction of a numeral, if one follows. -/
def scanFraction : List Char → Option (Option (List Nat) × List Char)
  | '.' :: rest =>
      let digits := takeDigits rest
      if digits.1.isEmpty then none else some (some digits.1, digits.2)
  | rest => some (none, rest)

/-- Reads a numeral without its sign. -/
def scanNumeral (negative : Bool) (text : List Char) :
    Option (Numeral × List Char) := do
  let whole := takeDigits text
  if whole.1.isEmpty || (whole.1.head? == some 0 && whole.1.length != 1) then none
  else
    let fraction ← scanFraction whole.2
    let exponent ← scanExponent fraction.2
    return (⟨negative, whole.1, fraction.1, exponent.1⟩, exponent.2)

/-- Reads a string, a numeral or a word. -/
def scanScalar : List Char → Option (Source × List Char)
  | '"' :: rest => (scanString rest).map fun (units, left) => (.string (textOf units), left)
  | '-' :: rest => (scanNumeral true rest).map fun (numeral, left) => (.number numeral, left)
  | 'n' :: 'u' :: 'l' :: 'l' :: rest => some (.null, rest)
  | 't' :: 'r' :: 'u' :: 'e' :: rest => some (.bool true, rest)
  | 'f' :: 'a' :: 'l' :: 's' :: 'e' :: rest => some (.bool false, rest)
  | text => (scanNumeral false text).map fun (numeral, left) => (.number numeral, left)

/-! ## Each scalar consumes characters -/

theorem length_of_scanString {text left : List Char} {units : List Nat}
    (found : scanString text = some (units, left)) :
    left.length < text.length := by
  fun_induction scanString text generalizing units left with
  | case1 rest => simp_all
  | case2 a b c d rest unit tail rest' hu hs ih =>
      simp_all
      omega
  | case3 => simp_all
  | case4 c rest _ unit tail rest' hu hs ih =>
      simp_all
      omega
  | case5 => simp_all
  | case6 => simp_all
  | case7 c rest _ _ _ _ tail rest' hs ih =>
      simp_all
      omega
  | case8 => simp_all
  | case9 => simp_all

theorem length_of_takeDigits (text : List Char) :
    (takeDigits text).2.length ≤ text.length :=
  (List.dropWhile_suffix _).length_le

/-- A run of digits that is not empty is taken off the text. -/
theorem length_of_takeDigits_ne {text : List Char}
    (found : (takeDigits text).1.isEmpty = false) :
    (takeDigits text).2.length < text.length := by
  cases text with
  | nil => simp [takeDigits] at found
  | cons c rest =>
      have := (List.dropWhile_suffix (l := rest) Char.isDigit).length_le
      cases first : c.isDigit with
      | false => simp [takeDigits, first] at found
      | true =>
          simp [takeDigits, first]
          omega

theorem length_of_takeSign (text : List Char) :
    (takeSign text).2.length ≤ text.length := by
  unfold takeSign
  split <;> simp

theorem length_of_scanFraction {text : List Char} {result : Option (List Nat) × List Char}
    (found : scanFraction text = some result) :
    result.2.length ≤ text.length := by
  unfold scanFraction at found
  split at found
  · rename_i rest
    have := length_of_takeDigits rest
    simp only at found
    split at found
    · cases found
    · cases found
      simp
      omega
  · cases found
    simp

theorem length_of_scanExponent {text : List Char}
    {result : Option (Bool × List Nat) × List Char}
    (found : scanExponent text = some result) :
    result.2.length ≤ text.length := by
  unfold scanExponent at found
  split at found
  · rename_i c rest
    have := length_of_takeSign rest
    have := length_of_takeDigits (takeSign rest).2
    split at found
    · simp only at found
      split at found
      · cases found
      · cases found
        simp
        omega
    · cases found
      simp
  · cases found
    simp

theorem length_of_scanNumeral {negative : Bool} {text : List Char}
    {result : Numeral × List Char}
    (found : scanNumeral negative text = some result) :
    result.2.length < text.length := by
  unfold scanNumeral at found
  simp only at found
  split at found
  · cases found
  · rename_i whole
    simp only [Bool.or_eq_true, not_or, Bool.not_eq_true] at whole
    simp only [Option.bind_eq_bind, Option.bind_eq_some_iff, Option.pure_def,
      Option.some.injEq] at found
    obtain ⟨fraction, hf, exponent, he, rfl⟩ := found
    have := length_of_takeDigits_ne whole.1
    have := length_of_scanFraction hf
    have := length_of_scanExponent he
    simp
    omega

theorem length_of_scanScalar {text left : List Char} {source : Source}
    (found : scanScalar text = some (source, left)) :
    left.length < text.length := by
  unfold scanScalar at found
  split at found
  · simp only [Option.map_eq_some_iff, Prod.mk.injEq] at found
    obtain ⟨⟨units, rest⟩, hs, -, rfl⟩ := found
    have := length_of_scanString hs
    simp
    omega
  · simp only [Option.map_eq_some_iff, Prod.mk.injEq] at found
    obtain ⟨⟨numeral, rest⟩, hs, -, rfl⟩ := found
    have := length_of_scanNumeral hs
    simp at this ⊢
    omega
  · simp_all
    omega
  · simp_all
    omega
  · simp_all
    omega
  · simp only [Option.map_eq_some_iff, Prod.mk.injEq] at found
    obtain ⟨⟨numeral, rest⟩, hs, -, rfl⟩ := found
    exact length_of_scanNumeral hs

/-! ## Arrays and objects -/

/-- An array or an object that is still open, its finished part reversed. -/
inductive Frame where
  | items (before : List Source)
  | members (before : List (Option String × Source)) (name : Option String)

/-- What the grammar allows next. -/
inductive Expect where
  | value
  | itemOrEnd
  | name (before : List (Option String × Source))
  | nameOrEnd
  | colon (before : List (Option String × Source)) (name : Option String)
  | after (source : Source)

/-- The text after any spaces. -/
def skipSpaces (text : List Char) : List Char :=
  text.dropWhile isSpace

/-- Reads on with the given open containers; each step consumes a character. -/
def run (stack : List Frame) (expect : Expect) (text : List Char) : Option Source :=
  match next : skipSpaces text with
  | [] =>
      match stack, expect with
      | [], .after source => some source
      | _, _ => none
  | c :: rest =>
      have shorter : rest.length < text.length := by
        have := (List.dropWhile_suffix (l := text) isSpace).length_le
        simp only [skipSpaces] at next
        simp [next] at this
        omega
      match expect with
      | .after source =>
          match stack with
          | [] => none
          | .items before :: stack =>
              if c = ',' then run (.items (source :: before) :: stack) .value rest
              else if c = ']' then run stack (.after (.array (source :: before).reverse)) rest
              else none
          | .members before name :: stack =>
              let members := (name, source) :: before
              if c = ',' then run stack (.name members) rest
              else if c = '\x7d' then run stack (.after (.object members.reverse)) rest
              else none
      | .colon before name =>
          if c = ':' then run (.members before name :: stack) .value rest else none
      | .name before =>
          if c = '"' then
            match found : scanString rest with
            | some (units, left) =>
                have := length_of_scanString found
                run stack (.colon before (textOf units)) left
            | none => none
          else none
      | .nameOrEnd =>
          if c = '\x7d' then run stack (.after (.object [])) rest
          else if c = '"' then
            match found : scanString rest with
            | some (units, left) =>
                have := length_of_scanString found
                run stack (.colon [] (textOf units)) left
            | none => none
          else none
      | .itemOrEnd =>
          if c = ']' then
            match stack with
            | .items [] :: stack => run stack (.after (.array [])) rest
            | _ => none
          else if c = '[' then run (.items [] :: stack) .itemOrEnd rest
          else if c = '\x7b' then run stack .nameOrEnd rest
          else
            match found : scanScalar (c :: rest) with
            | some (source, left) =>
                have := length_of_scanScalar found
                run stack (.after source) left
            | none => none
      | .value =>
          if c = '[' then run (.items [] :: stack) .itemOrEnd rest
          else if c = '\x7b' then run stack .nameOrEnd rest
          else
            match found : scanScalar (c :: rest) with
            | some (source, left) =>
                have := length_of_scanScalar found
                run stack (.after source) left
            | none => none
termination_by text.length
decreasing_by
  all_goals first
    | omega
    | (simp only [List.length_cons] at this; omega)

/-- The structure of a text, if it follows the grammar. -/
def Source.ofText? (text : String) : Option Source :=
  run [] .value text.toList

/-! ## Values -/

mutual

/-- The value of a structure, its containers nested at most `depth` deep. -/
def Source.eval? (depth : Nat) : Source → Option Json
  | .null => some .null
  | .bool value => some (.bool value)
  | .number numeral => numeral.value?
  | .string text => text.map .str
  | .array items =>
      match depth with
      | 0 => none
      | depth + 1 => (Source.evalItems? depth items).map .arr
  | .object members =>
      match depth with
      | 0 => none
      | depth + 1 => (Source.evalMembers? depth members).map .obj

/-- The values of all items. -/
def Source.evalItems? (depth : Nat) : List Source → Option (List Json)
  | [] => some []
  | item :: rest =>
      match Source.eval? depth item, Source.evalItems? depth rest with
      | some value, some values => some (value :: values)
      | _, _ => none

/-- The names and values of all members. -/
def Source.evalMembers? (depth : Nat) :
    List (Option String × Source) → Option (List (String × Json))
  | [] => some []
  | (name, item) :: rest =>
      match name, Source.eval? depth item, Source.evalMembers? depth rest with
      | some name, some value, some values => some ((name, value) :: values)
      | _, _, _ => none

end

/-- How deeply the arrays and objects of a text may be nested. -/
def greatestDepth : Nat := 127

/-- The value of a text, if it is a JSON document. -/
def ofText? (text : String) : Option Json :=
  (Source.ofText? text).bind (Source.eval? greatestDepth)

end KeyLayers.Json
