import KeyLayers.Text.Character

/-!
# Timestamps

The moment at which a backup was taken stands at the end of its name, as in
`2024-02-29_120000`.  It is written in one way and read in several: a number may
have fewer digits or blanks in front, and a year may have a sign.  What is read
is a moment of the calendar; second 60 is a leap second.

Timestamps are ordered by their fields, the greatest unit first.
-/

namespace KeyLayers

/-- A moment of local time, to the second. -/
structure Timestamp where
  year : Int
  month : Nat
  day : Nat
  hour : Nat
  minute : Nat
  second : Nat
deriving DecidableEq, Repr

namespace Timestamp

open Text (isBlank digitValue)

/-! ## The calendar -/

/-- Whether a year has a 29th of February. -/
def isLeapYear (year : Int) : Bool :=
  year % 4 == 0 && (year % 100 != 0 || year % 400 == 0)

/-- The number of days of a month. -/
def daysInMonth (year : Int) (month : Nat) : Nat :=
  match month with
  | 2 => if isLeapYear year then 29 else 28
  | 4 | 6 | 9 | 11 => 30
  | _ => 31

/-- The first and the last year that a timestamp can have. -/
def years : Int × Int := (-262143, 262142)

/-- Whether the fields denote a moment of the calendar. -/
def isValid (timestamp : Timestamp) : Bool :=
  years.1 ≤ timestamp.year && timestamp.year ≤ years.2 &&
    1 ≤ timestamp.month && timestamp.month ≤ 12 &&
    1 ≤ timestamp.day && timestamp.day ≤ daysInMonth timestamp.year timestamp.month &&
    timestamp.hour < 24 && timestamp.minute < 60 && timestamp.second ≤ 60

/-- The fields in the order in which timestamps are compared. -/
def key (timestamp : Timestamp) : List Int :=
  [timestamp.year, timestamp.month, timestamp.day, timestamp.hour, timestamp.minute,
    timestamp.second]

/-- Whether a timestamp is the same as another one or earlier. -/
def le (left right : Timestamp) : Bool :=
  !decide (right.key < left.key)

theorem key_injective {left right : Timestamp} (same : left.key = right.key) :
    left = right := by
  cases left
  cases right
  simp only [key, List.cons.injEq] at same
  simp only [Timestamp.mk.injEq]
  omega

/-! ## Writing -/

/-- A number with zeros in front up to a width. -/
def padded (width number : Nat) : String :=
  let digits := (toString number).toList
  String.ofList (List.replicate (width - digits.length) '0' ++ digits)

/-- A year of four digits, with a sign if it does not lie between 0 and 9999. -/
def yearText (year : Int) : String :=
  if 0 ≤ year ∧ year ≤ 9999 then padded 4 year.toNat
  else (if year < 0 then "-" else "+") ++ padded 4 year.natAbs

/-- The written form of a timestamp. -/
def text (timestamp : Timestamp) : String :=
  yearText timestamp.year ++ "-" ++ padded 2 timestamp.month ++ "-" ++
    padded 2 timestamp.day ++ "_" ++ padded 2 timestamp.hour ++
    padded 2 timestamp.minute ++ padded 2 timestamp.second

/-! ## Reading -/

/-- The number that decimal digits denote. -/
def numberOf (digits : List Char) : Nat :=
  digits.foldl (fun value c => value * 10 + digitValue c) 0

/-- The number at the beginning of a text, and what follows it. -/
def digits? (text : List Char) : Option (Nat × List Char) :=
  let digits := text.takeWhile Char.isDigit
  if digits.isEmpty then none else some (numberOf digits, text.drop digits.length)

/-- A number of at most so many digits, with blanks in front of it. -/
def number? (width : Nat) (text : List Char) : Option (Nat × List Char) :=
  let text := text.dropWhile isBlank
  let digits := (text.take width).takeWhile Char.isDigit
  if digits.isEmpty then none else some (numberOf digits, text.drop digits.length)

/-- A year: four digits at most, or any number of them after a sign. -/
def year? (text : List Char) : Option (Int × List Char) :=
  match text.dropWhile isBlank with
  | '-' :: rest => (digits? rest).map fun (number, rest) => (-number, rest)
  | '+' :: rest => (digits? rest).map fun (number, rest) => (number, rest)
  | _ => (number? 4 text).map fun (number, rest) => (number, rest)

/-- What follows a given character at the beginning of a text. -/
def after? (c : Char) : List Char → Option (List Char)
  | [] => none
  | first :: rest => if first = c then some rest else none

/-- Reads a timestamp. -/
def ofText? (text : String) : Option Timestamp := do
  let (year, rest) ← year? text.toList
  let (month, rest) ← number? 2 (← after? '-' rest)
  let (day, rest) ← number? 2 (← after? '-' rest)
  let (hour, rest) ← number? 2 (← after? '_' rest)
  let (minute, rest) ← number? 2 rest
  let (second, rest) ← number? 2 rest
  let timestamp : Timestamp := { year, month, day, hour, minute, second }
  if rest.isEmpty && timestamp.isValid then some timestamp else none

end Timestamp

end KeyLayers
