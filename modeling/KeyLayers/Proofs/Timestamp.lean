import KeyLayers.Proofs.Json.Scan
import KeyLayers.Timestamp
import Mathlib.Algebra.Group.Nat.Defs

/-!
# Timestamps read back

A timestamp that denotes a moment of the calendar is read back from its written
form, so a backup is recognised by its name (`Timestamp.ofText?_text`).  Every
number but the year is written with two digits and read with two at most, which
is why no separator is needed between hours, minutes and seconds.
-/

namespace KeyLayers.Timestamp

open Text (isBlank digitValue)
open Json (ne_of_isDigit)

/-! ## Numbers -/

/-- Digits that denote a number. -/
structure Denotes (digits : List Char) (number : Nat) : Prop where
  digit : ∀ c ∈ digits, c.isDigit = true
  value : numberOf digits = number
  some : digits ≠ []

section

variable {digits rest : List Char} {width number : Nat}

theorem numberOf_eq (digits : List Char) : numberOf digits = Nat.ofDigitChars 10 digits 0 := by
  rw [numberOf]
  generalize 0 = start
  induction digits generalizing start with
  | nil => rfl
  | cons c rest ih =>
      rw [List.foldl_cons, ih, Nat.ofDigitChars_cons, Nat.mul_comm]
      rfl

theorem toList_padded (width number : Nat) :
    (padded width number).toList =
      List.replicate (width - (Nat.toDigits 10 number).length) '0' ++ Nat.toDigits 10 number := by
  have digits : (toString number).toList = Nat.toDigits 10 number := Nat.toList_repr
  simp only [padded, digits, String.toList_ofList]

theorem denotes_padded (width number : Nat) : Denotes (padded width number).toList number := by
  rw [toList_padded]
  constructor
  case digit =>
    intro c member
    rcases List.mem_append.1 member with zero | digit
    · rw [List.eq_of_mem_replicate zero]
      rfl
    · exact Nat.isDigit_of_mem_toDigits (by decide) (by decide) digit
  case value =>
    rw [numberOf_eq, Nat.ofDigitChars_append, Nat.ofDigitChars_replicate_zero, Nat.mul_zero,
      Nat.ofDigitChars_ten_toDigits]
  case some =>
    have positive : 0 < (Nat.toDigits 10 number).length := Nat.length_toDigits_pos
    intro none
    rw [(List.append_eq_nil_iff.1 none).2] at positive
    cases positive

/-- A number that fits its width is written with as many digits. -/
theorem length_padded (positive : 0 < width) (fits : number < 10 ^ width) :
    (padded width number).toList.length = width := by
  have bound := (Nat.length_toDigits_le_iff (by decide) positive).2 fits
  rw [toList_padded, List.length_append, List.length_replicate]
  omega

theorem isBlank_of_isDigit {c : Char} (digit : c.isDigit = true) : isBlank c = false := by
  have range : 48 ≤ c.toNat ∧ c.toNat ≤ 57 := by
    simpa [Char.isDigit, UInt32.le_iff_toNat_le] using digit
  have other {d : Char} (far : d.toNat < 48 ∨ 57 < d.toNat) : (c == d) = false := by
    rw [beq_eq_false_iff_ne]
    rintro rfl
    omega
  simp only [isBlank, Char.le_def, Char.reduceVal, UInt32.le_iff_toNat_le, UInt32.reduceToNat,
    Char.toNat_val, Char.reduceToNat, Nat.reduceLT, or_false, other, Bool.or_false, or_true,
    Bool.or_eq_false_iff, Bool.and_eq_false_imp, decide_eq_true_eq, decide_eq_false_iff_not,
    not_le]
  omega

/-- No blank is skipped where digits begin. -/
theorem dropWhile_isBlank (written : Denotes digits number) :
    (digits ++ rest).dropWhile isBlank = digits ++ rest := by
  cases digits with
  | nil => exact absurd rfl written.some
  | cons c more =>
      have digit := isBlank_of_isDigit (written.digit c (.head _))
      rw [List.cons_append, List.dropWhile_cons_of_neg (by simp [digit])]

theorem number?_append (written : Denotes digits number) (full : digits.length = width) :
    number? width (digits ++ rest) = some (number, rest) := by
  have all : digits.takeWhile Char.isDigit = digits := List.takeWhile_eq_self_iff.2 written.digit
  simp only [number?, dropWhile_isBlank written, List.take_left' full, all,
    List.isEmpty_eq_false_iff.2 written.some, List.drop_left, written.value,
    Bool.false_eq_true, if_false]

theorem digits?_append (written : Denotes digits number)
    (ends : ∀ c ∈ rest.head?, c.isDigit = false) :
    digits? (digits ++ rest) = some (number, rest) := by
  have none : rest.takeWhile Char.isDigit = [] := by
    cases rest with
    | nil => rfl
    | cons c more => exact List.takeWhile_cons_of_neg (by simp [ends c rfl])
  have all : (digits ++ rest).takeWhile Char.isDigit = digits := by
    rw [List.takeWhile_append_of_pos written.digit, none, List.append_nil]
  simp only [digits?, all, List.isEmpty_eq_false_iff.2 written.some, List.drop_left,
    written.value, Bool.false_eq_true, if_false]

/-- A number of two digits. -/
theorem number?_padded_two (fits : number < 100) :
    number? 2 ((padded 2 number).toList ++ rest) = some (number, rest) :=
  number?_append (denotes_padded 2 number) (length_padded (by decide) fits)

end

/-! ## Years -/

theorem ne_sign {digits rest tail : List Char} {number : Nat} {sign : Char}
    (written : Denotes digits number) (noDigit : sign.isDigit = false) :
    digits ++ rest ≠ sign :: tail := by
  cases digits with
  | nil => exact absurd rfl written.some
  | cons c more =>
      intro same
      have digit := written.digit c (.head _)
      exact ne_of_isDigit digit noDigit (List.cons.inj same).1

theorem year?_minus (text : List Char) :
    year? ('-' :: text) = (digits? text).map fun (number, rest) => (-number, rest) := by
  rw [year?, List.dropWhile_cons_of_neg (by decide)]
  rfl

theorem year?_plus (text : List Char) :
    year? ('+' :: text) = (digits? text).map fun (number, rest) => (number, rest) := by
  rw [year?, List.dropWhile_cons_of_neg (by decide)]
  rfl

/-- A year is read back, up to the dash after it. -/
theorem year?_yearText (year : Int) (rest : List Char) :
    year? ((yearText year).toList ++ '-' :: rest) = some (year, '-' :: rest) := by
  have ends : ∀ c ∈ ('-' :: rest).head?, c.isDigit = false := by
    rintro c ⟨⟩
    rfl
  rw [yearText]
  split
  case isTrue plain =>
    have written := denotes_padded 4 year.toNat
    have full : (padded 4 year.toNat).toList.length = 4 := by
      apply length_padded (by decide)
      omega
    have back : (year.toNat : Int) = year := Int.toNat_of_nonneg plain.1
    rw [year?, dropWhile_isBlank written]
    split
    · exact absurd ‹_› (ne_sign written rfl)
    · exact absurd ‹_› (ne_sign written rfl)
    · rw [number?_append written full]
      exact congrArg some (Prod.ext back rfl)
  case isFalse =>
    have read := digits?_append (denotes_padded 4 year.natAbs) ends
    by_cases negative : year < 0
    · have back : -(year.natAbs : Int) = year := by omega
      have sign : "-".toList = ['-'] := rfl
      rw [if_pos negative, String.toList_append, sign, List.append_assoc, List.singleton_append,
        year?_minus, read]
      exact congrArg some (Prod.ext back rfl)
    · have back : (year.natAbs : Int) = year := by omega
      have sign : "+".toList = ['+'] := rfl
      rw [if_neg negative, String.toList_append, sign, List.append_assoc, List.singleton_append,
        year?_plus, read]
      exact congrArg some (Prod.ext back rfl)

/-! ## Timestamps -/

/-- No month has more days than two digits can count. -/
theorem daysInMonth_le (year : Int) (month : Nat) : daysInMonth year month ≤ 31 := by
  unfold daysInMonth
  split
  · split <;> decide
  all_goals decide

/-- A moment of the calendar is read back from its written form. -/
theorem ofText?_text {timestamp : Timestamp} (valid : timestamp.isValid = true) :
    ofText? timestamp.text = some timestamp := by
  have fields : timestamp.month < 100 ∧ timestamp.day < 100 ∧ timestamp.hour < 100 ∧
      timestamp.minute < 100 ∧ timestamp.second < 100 := by
    have days := daysInMonth_le timestamp.year timestamp.month
    simp only [isValid, Bool.and_eq_true, decide_eq_true_eq] at valid
    omega
  rcases fields with ⟨month, day, hour, minute, second⟩
  have last : number? 2 (padded 2 timestamp.second).toList = some (timestamp.second, []) := by
    rw [← List.append_nil (padded 2 timestamp.second).toList]
    exact number?_padded_two second
  have after (c : Char) (rest : List Char) : after? c (c :: rest) = some rest := if_pos rfl
  have dash : "-".toList = ['-'] := rfl
  have underscore : "_".toList = ['_'] := rfl
  simp only [ofText?, text, String.toList_append, List.append_assoc, dash, underscore,
    List.cons_append, List.nil_append, year?_yearText, after, number?_padded_two month,
    number?_padded_two day, number?_padded_two hour, number?_padded_two minute, last, bind,
    Option.bind_some, List.isEmpty_nil, Bool.true_and, valid, if_true]

end KeyLayers.Timestamp
