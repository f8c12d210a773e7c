import KeyLayers.Text.Character
import KeyLayers.Toml.Value

/-!
# Bare TOML values

A value without quotes or brackets is a truth value, a number, a date or a
time.  Underscores may stand between the digits of a number.  A date or a time
is brought into its normal text: `T` between the two, no needless zeros at the
end of a fraction, and the offset as a signed time or `Z`.
-/

namespace KeyLayers.Toml

open Text (digitValue hexValue?)

/-! ## Numbers -/

/-- The digits of a run in which single underscores stand between digits. -/
def digitRun? (isDigit : Char → Bool) : List Char → Option (List Char)
  | [] => none
  | [c] => if isDigit c then some [c] else none
  | c :: '_' :: rest => if isDigit c then (digitRun? isDigit rest).map (c :: ·) else none
  | c :: rest => if isDigit c then (digitRun? isDigit rest).map (c :: ·) else none

/-- The number that decimal digits denote. -/
def decimalValue (digits : List Char) : Nat :=
  digits.foldl (fun value c => value * 10 + digitValue c) 0

/-- The value of digits of a given base, with underscores. -/
def baseValue? (base : Nat) (text : List Char) : Option Nat :=
  let isDigit (c : Char) : Bool :=
    match hexValue? c with
    | some value => value < base
    | none => false
  (digitRun? isDigit text).map fun digits =>
    digits.foldl (fun value c => value * base + (hexValue? c).getD 0) 0

/-- Splits off a sign: whether it is negative. -/
def splitSign : List Char → Bool × List Char
  | '-' :: rest => (true, rest)
  | '+' :: rest => (false, rest)
  | text => (false, text)

/-- The digits of a decimal integer, which has no needless zeros in front. -/
def wholeDigits? (text : List Char) : Option (List Char) :=
  match digitRun? Char.isDigit text with
  | some ['0'] => some ['0']
  | some ('0' :: _) => none
  | other => other

/-- Reads an integer in decimal, or in base 16, 8 or 2 without a sign. -/
def int? : List Char → Option Toml
  | '0' :: 'x' :: digits => (baseValue? 16 digits).map fun value => .int value
  | '0' :: 'o' :: digits => (baseValue? 8 digits).map fun value => .int value
  | '0' :: 'b' :: digits => (baseValue? 2 digits).map fun value => .int value
  | text =>
      let (negative, digits) := splitSign text
      (wholeDigits? digits).map fun digits =>
        let value : Int := decimalValue digits
        .int (if negative then -value else value)

/-- Whether a character begins an exponent. -/
def isExponentSign (c : Char) : Bool :=
  c == 'e' || c == 'E'

/-- The exponent of a number, if its text has one. -/
def exponent? : List Char → Option Int
  | [] => some 0
  | _ :: text =>
      let (negative, digits) := splitSign text
      (digitRun? Char.isDigit digits).map fun digits =>
        let value : Int := decimalValue digits
        if negative then -value else value

/-- The digits of a fraction, if the text has one. -/
def fraction? : List Char → Option (List Char)
  | [] => some []
  | _ :: digits => digitRun? Char.isDigit digits

/-- Reads a number with a fraction, an exponent, or both; it may not be too large. -/
def float? (text : List Char) : Option Toml := do
  let (negative, text) := splitSign text
  match text with
  | ['i', 'n', 'f'] => return .float (.infinite negative)
  | ['n', 'a', 'n'] => return .float .nan
  | _ =>
      let mantissa := text.takeWhile (!isExponentSign ·)
      let exponentText := text.dropWhile (!isExponentSign ·)
      let fractionText := mantissa.dropWhile (· != '.')
      if exponentText.isEmpty && fractionText.isEmpty then none
      else
        let whole ← wholeDigits? (mantissa.takeWhile (· != '.'))
        let fraction ← fraction? fractionText
        let exponent ← exponent? exponentText
        let value := Binary64.ofDecimal negative (decimalValue (whole ++ fraction))
          (exponent - fraction.length)
        if value.isFinite then return .float value else none

/-! ## Dates and times -/

/-- The value of two digits. -/
def twoDigits? (a b : Char) : Option Nat :=
  if a.isDigit && b.isDigit then some (decimalValue [a, b]) else none

/-- How many days a month has. -/
def daysInMonth (year month : Nat) : Nat :=
  match month with
  | 2 => if year % 4 = 0 ∧ (year % 100 ≠ 0 ∨ year % 400 = 0) then 29 else 28
  | 4 | 6 | 9 | 11 => 30
  | _ => 31

/-- Reads a date of the calendar. -/
def takeDate? : List Char → Option (List Char × List Char)
  | a :: b :: c :: d :: '-' :: e :: f :: '-' :: g :: h :: rest => do
      let year := (← twoDigits? a b) * 100 + (← twoDigits? c d)
      let month ← twoDigits? e f
      let day ← twoDigits? g h
      if 1 ≤ month ∧ month ≤ 12 ∧ 1 ≤ day ∧ day ≤ daysInMonth year month then
        return ([a, b, c, d, '-', e, f, '-', g, h], rest)
      else none
  | _ => none

/-- The normal text of a fraction of a second: at most nine digits. -/
def normalFraction (digits : List Char) : List Char :=
  let kept := ((digits.take 9).reverse.dropWhile (· == '0')).reverse
  '.' :: (if kept.isEmpty then ['0'] else kept)

/-- Reads a fraction of a second, if one follows. -/
def takeFraction? : List Char → Option (List Char × List Char)
  | '.' :: rest =>
      let digits := rest.takeWhile Char.isDigit
      if digits.isEmpty then none
      else some (normalFraction digits, rest.dropWhile Char.isDigit)
  | rest => some ([], rest)

/-- Reads a time of day. -/
def takeTime? : List Char → Option (List Char × List Char)
  | a :: b :: ':' :: c :: d :: ':' :: e :: f :: rest => do
      let hour ← twoDigits? a b
      let minute ← twoDigits? c d
      let second ← twoDigits? e f
      if hour ≤ 23 ∧ minute ≤ 59 ∧ second ≤ 60 then
        let (fraction, rest) ← takeFraction? rest
        return ([a, b, ':', c, d, ':', e, f] ++ fraction, rest)
      else none
  | _ => none

/-- The normal text of an offset from universal time. -/
def offset? : List Char → Option (List Char)
  | [] => some []
  | ['Z'] | ['z'] => some ['Z']
  | [sign, a, b, ':', c, d] => do
      let hours ← twoDigits? a b
      let minutes ← twoDigits? c d
      if (sign == '+' || sign == '-') && hours ≤ 23 && minutes ≤ 59 then
        let sign := if hours = 0 ∧ minutes = 0 then '+' else sign
        return [sign, a, b, ':', c, d]
      else none
  | _ => none

/-- Whether a character stands between a date and a time. -/
def isDateTimeMark (c : Char) : Bool :=
  c == 'T' || c == 't' || c == ' '

/-- Reads a date, a time, or a date with a time and an offset. -/
def datetime? (text : List Char) : Option Toml :=
  let normal : Option (List Char) :=
    match takeDate? text with
    | some (date, []) => some date
    | some (date, mark :: rest) =>
        if isDateTimeMark mark then do
          let (time, rest) ← takeTime? rest
          return date ++ 'T' :: time ++ (← offset? rest)
        else none
    | none => do
        let (time, rest) ← takeTime? text
        if rest.isEmpty then return time else none
  normal.map fun text => .datetime (String.ofList text)

/-! ## All of them -/

/-- The value of a text without quotes and brackets. -/
def ofBare? (text : List Char) : Option Toml :=
  match text with
  | ['t', 'r', 'u', 'e'] => some (.bool true)
  | ['f', 'a', 'l', 's', 'e'] => some (.bool false)
  | _ => int? text <|> float? text <|> datetime? text

end KeyLayers.Toml
