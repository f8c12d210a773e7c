import KeyLayers.Json.Source
import KeyLayers.Json.Text
import Mathlib.Data.List.TakeWhile

/-!
# Scanning what has been written

A scalar that has been written is scanned up to its last character, whatever
comes after it.  For a string that is the closing quote.  A numeral has no end
of its own, so what follows must not be able to continue it.
-/

namespace KeyLayers.Json

open Text (digitValue)

/-! ## Strings -/

theorem scanString_escape {sign : Char} {code : Nat} (found : escape? sign = some code)
    (rest : List Char) :
    scanString ('\\' :: sign :: rest) =
      (scanString rest).map fun (units, left) => (code :: units, left) := by
  have other : sign ≠ 'u' := by
    rintro rfl
    simp [escape?] at found
  cases scanned : scanString rest <;> simp [scanString, other, found, scanned]

theorem scanString_hex {a b c d : Char} {code : Nat} (found : fourHex? a b c d = some code)
    (rest : List Char) :
    scanString ('\\' :: 'u' :: a :: b :: c :: d :: rest) =
      (scanString rest).map fun (units, left) => (code :: units, left) := by
  cases scanned : scanString rest <;> simp [scanString, found, scanned]

theorem scanString_plain {c : Char} (quote : c ≠ '"') (backslash : c ≠ '\\')
    (printable : ¬c < ' ') (rest : List Char) :
    scanString (c :: rest) =
      (scanString rest).map fun (units, left) => (c.toNat :: units, left) := by
  rw [scanString]
  · cases scanString rest <;> simp [backslash, printable]
  · exact quote
  · rintro _ _ _ _ _ rfl _
    exact backslash rfl
  · rintro _ _ rfl _
    exact backslash rfl

theorem fourHex?_control {code : Nat} (control : code < 32) :
    fourHex? '0' '0' (Nat.digitChar (code / 16)) (Nat.digitChar (code % 16)) = some code := by
  have all : ∀ code < 32,
      fourHex? '0' '0' (Nat.digitChar (code / 16)) (Nat.digitChar (code % 16)) = some code := by
    decide
  exact all code control

/-- A character is written as a short escape, as its number, or as it is. -/
theorem escapedChar_cases (c : Char) :
    (∃ sign, escapedChar c = ['\\', sign] ∧ escape? sign = some c.toNat) ∨
    (c.toNat < 32 ∧
      escapedChar c =
        ['\\', 'u', '0', '0', Nat.digitChar (c.toNat / 16), Nat.digitChar (c.toNat % 16)]) ∨
    (escapedChar c = [c] ∧ c ≠ '"' ∧ c ≠ '\\' ∧ ¬c < ' ') := by
  unfold escapedChar
  iterate 7
    split
    next same =>
      rw [eq_of_beq same]
      exact .inl ⟨_, rfl, rfl⟩
  split
  next control => exact .inr (.inl ⟨control, rfl⟩)
  next printable => simp_all

/-- What is written for a character is scanned as its code unit. -/
theorem scanString_escapedChar (c : Char) (rest : List Char) :
    scanString (escapedChar c ++ rest) =
      (scanString rest).map fun (units, left) => (c.toNat :: units, left) := by
  rcases escapedChar_cases c with
    ⟨sign, form, code⟩ | ⟨control, form⟩ | ⟨form, quote, backslash, printable⟩
  · rw [form]
    exact scanString_escape code rest
  · rw [form]
    exact scanString_hex (fourHex?_control control) rest
  · rw [form]
    exact scanString_plain quote backslash printable rest

theorem scanString_written (text rest : List Char) :
    scanString (text.flatMap escapedChar ++ '"' :: rest) =
      some (text.map Char.toNat, rest) := by
  induction text with
  | nil => simp [scanString]
  | cons c text ih =>
      rw [List.flatMap_cons, List.append_assoc, scanString_escapedChar, ih]
      rfl

theorem toNat_not_surrogate (c : Char) : ¬(0xd800 ≤ c.toNat ∧ c.toNat < 0xe000) := by
  have scalar : c.toNat < 0xd800 ∨ 0xdfff < c.toNat ∧ c.toNat < 0x110000 := c.valid
  omega

/-- Code units that are characters are not joined with one another. -/
theorem joinUnits_toNat (text : List Char) : joinUnits (text.map Char.toNat) = some text := by
  induction text with
  | nil => rfl
  | cons c text ih =>
      have scalar := toNat_not_surrogate c
      cases text with
      | nil => simp [joinUnits, scalar]
      | cons d text =>
          have notHigh : ¬(0xd800 ≤ c.toNat ∧ c.toNat < 0xdc00) := by omega
          have notLow : ¬(0xdc00 ≤ c.toNat ∧ c.toNat < 0xe000) := by omega
          simp only [List.map_cons] at ih ⊢
          rw [joinUnits, if_neg notHigh, if_neg notLow, ih]
          simp

theorem textOf_toNat (text : String) : textOf (text.toList.map Char.toNat) = some text := by
  simp [textOf, joinUnits_toNat]

/-- A written string is scanned as the text that it was written for. -/
theorem scanScalar_writeString (text : String) (rest : List Char) :
    scanScalar (writeString text ++ rest) = some (.string (some text), rest) := by
  simp [writeString, scanScalar, scanString_written, textOf_toNat]

/-! ## Numerals -/

/-- Whether no numeral goes on with a text. -/
def EndsNumeral (rest : List Char) : Prop :=
  ∀ c ∈ rest.head?, c.isDigit = false ∧ c ≠ '.' ∧ c ≠ 'e' ∧ c ≠ 'E'

section

variable {rest : List Char} (ends : EndsNumeral rest)

include ends

theorem takeDigits_append (text : List Char) :
    takeDigits (text ++ rest) = ((takeDigits text).1, (takeDigits text).2 ++ rest) := by
  induction text with
  | nil =>
      cases rest with
      | nil => rfl
      | cons c rest => simp [takeDigits, (ends c rfl).1]
  | cons c text ih =>
      simp only [takeDigits, Prod.mk.injEq] at ih
      cases digit : c.isDigit with
      | true => simp [takeDigits, digit, ih]
      | false => simp [takeDigits, digit]

theorem scanFraction_append {text left : List Char} {fraction : Option (List Nat)}
    (found : scanFraction text = some (fraction, left)) :
    scanFraction (text ++ rest) = some (fraction, left ++ rest) := by
  unfold scanFraction at found
  split at found
  next text =>
    simp only [Option.ite_none_left_eq_some, Option.some.injEq, Prod.mk.injEq] at found
    obtain ⟨some, rfl, rfl⟩ := found
    simp [scanFraction, takeDigits_append ends, some]
  next noPoint =>
    cases found
    cases text with
    | nil =>
        unfold scanFraction
        split
        next text same => exact absurd rfl (ends '.' (by simp_all)).2.1
        next => rfl
    | cons c text =>
        have other : c ≠ '.' := fun same => noPoint text (by rw [same])
        simp [scanFraction, other]

theorem scanExponent_append {text left : List Char} {exponent : Option (Bool × List Nat)}
    (found : scanExponent text = some (exponent, left)) :
    scanExponent (text ++ rest) = some (exponent, left ++ rest) := by
  cases text with
  | nil =>
      cases found
      cases rest with
      | nil => rfl
      | cons c rest => simp [scanExponent, (ends c rfl).2.2]
  | cons c text =>
      by_cases mark : c = 'e' ∨ c = 'E'
      · simp only [scanExponent, if_pos mark, Option.ite_none_left_eq_some,
          Option.some.injEq, Prod.mk.injEq] at found
        obtain ⟨digits, rfl, rfl⟩ := found
        have sign : takeSign (text ++ rest) = ((takeSign text).1, (takeSign text).2 ++ rest) := by
          cases text with
          | nil => simp [takeSign, takeDigits] at digits
          | cons d text => unfold takeSign; split <;> simp_all
        simp [scanExponent, mark, sign, takeDigits_append ends, digits]
      · simp only [scanExponent, if_neg mark, Option.some.injEq, Prod.mk.injEq] at found
        obtain ⟨rfl, rfl⟩ := found
        simp [scanExponent, mark]

/-- A numeral that has been scanned is scanned again if it is followed by something else. -/
theorem scanNumeral_append {negative : Bool} {text left : List Char} {numeral : Numeral}
    (found : scanNumeral negative text = some (numeral, left)) :
    scanNumeral negative (text ++ rest) = some (numeral, left ++ rest) := by
  simp only [scanNumeral, Option.bind_eq_bind, Option.ite_none_left_eq_some,
    Option.bind_eq_some_iff, Option.pure_def, Option.some.injEq, Prod.mk.injEq] at found
  obtain ⟨whole, ⟨fraction, afterWhole⟩, hf, ⟨exponent, afterFraction⟩, he, rfl, rfl⟩ := found
  simp only [scanNumeral, takeDigits_append ends, if_neg whole, scanFraction_append ends hf,
    scanExponent_append ends he, Option.bind_eq_bind, Option.bind_some, Option.pure_def]

end

theorem ne_of_isDigit {c sign : Char} (digit : c.isDigit = true)
    (noDigit : sign.isDigit = false) : c ≠ sign := by
  rintro rfl
  simp [digit] at noDigit

theorem scanScalar_of_digit {c : Char} (digit : c.isDigit = true) (text : List Char) :
    scanScalar (c :: text) =
      (scanNumeral false (c :: text)).map fun (numeral, left) => (.number numeral, left) := by
  have quote : c ≠ '"' := ne_of_isDigit digit rfl
  have minus : c ≠ '-' := ne_of_isDigit digit rfl
  have word : c ≠ 'n' ∧ c ≠ 't' ∧ c ≠ 'f' :=
    ⟨ne_of_isDigit digit rfl, ne_of_isDigit digit rfl, ne_of_isDigit digit rfl⟩
  unfold scanScalar
  split <;> simp_all

theorem digit_of_scanNumeral {negative : Bool} {text left : List Char} {numeral : Numeral}
    (found : scanNumeral negative text = some (numeral, left)) :
    ∃ c rest, text = c :: rest ∧ c.isDigit = true := by
  cases text with
  | nil => simp [scanNumeral, takeDigits] at found
  | cons c text =>
      cases digit : c.isDigit with
      | true => exact ⟨c, text, rfl, digit⟩
      | false => simp [scanNumeral, takeDigits, digit] at found

theorem scanScalar_append {text left rest : List Char} {numeral : Numeral}
    (ends : EndsNumeral rest) (found : scanScalar text = some (.number numeral, left)) :
    scanScalar (text ++ rest) = some (.number numeral, left ++ rest) := by
  unfold scanScalar at found
  split at found
  case h_2 text =>
    simp only [Option.map_eq_some_iff, Prod.mk.injEq, Source.number.injEq] at found
    obtain ⟨⟨numeral, left⟩, scanned, rfl, rfl⟩ := found
    simp [scanScalar, scanNumeral_append ends scanned]
  case h_6 =>
    simp only [Option.map_eq_some_iff, Prod.mk.injEq, Source.number.injEq] at found
    obtain ⟨⟨numeral, left⟩, scanned, rfl, rfl⟩ := found
    obtain ⟨c, text, rfl, digit⟩ := digit_of_scanNumeral scanned
    rw [List.cons_append, scanScalar_of_digit digit, ← List.cons_append,
      scanNumeral_append ends scanned]
    rfl
  all_goals simp at found

/-! ## Integers -/

theorem gather_digits {limit start : Nat} {digits : List Char}
    (fits : Nat.ofDigitChars 10 digits start ≤ limit) :
    Numeral.gather limit start (digits.map digitValue) =
      (Nat.ofDigitChars 10 digits start, []) := by
  induction digits generalizing start with
  | nil => simp [Numeral.gather]
  | cons c rest ih =>
      have next : start * 10 + digitValue c = 10 * start + (c.toNat - '0'.toNat) := by
        rw [Nat.mul_comm]
        rfl
      rw [Nat.ofDigitChars_cons] at fits ⊢
      have grows := fits
      rw [Nat.ofDigitChars_eq_ofDigitChars_zero] at grows
      have within : ¬limit < 10 * start + (c.toNat - '0'.toNat) := by
        have := Nat.le_mul_of_pos_left (10 * start + (c.toNat - '0'.toNat))
          (Nat.pow_pos (n := rest.length) (show 0 < 10 by decide))
        omega
      rw [List.map_cons, Numeral.gather, next, if_neg within]
      exact ih fits

/-- No integer but zero is written with a zero in front. -/
theorem head_toDigits_ne {n : Nat} (positive : 0 < n) :
    ∃ c rest, Nat.toDigits 10 n = c :: rest ∧ digitValue c ≠ 0 := by
  induction n using Nat.base_induction 10 (by decide) with
  | single m small =>
      refine ⟨m.digitChar, [], Nat.toDigits_of_lt_base small, ?_⟩
      rw [show digitValue m.digitChar = m from Nat.toNat_digitChar_sub_48_of_lt_ten small]
      omega
  | digit m k small pos ih =>
      obtain ⟨c, rest, form, nonzero⟩ := ih pos
      refine ⟨c, rest ++ Nat.toDigits 10 k, ?_, nonzero⟩
      rw [← Nat.toDigits_append_toDigits (by decide) pos small, form, List.cons_append]

theorem scanNumeral_toDigits (negative : Bool) (n : Nat) :
    scanNumeral negative (Nat.toDigits 10 n) =
      some (⟨negative, (Nat.toDigits 10 n).map digitValue, none, none⟩, []) := by
  have digits : ∀ c ∈ Nat.toDigits 10 n, c.isDigit = true := fun c member =>
    Nat.isDigit_of_mem_toDigits (by decide) (by decide) member
  have taken : takeDigits (Nat.toDigits 10 n) = ((Nat.toDigits 10 n).map digitValue, []) := by
    simp [takeDigits, List.takeWhile_eq_self_iff.2 digits, List.dropWhile_eq_nil_iff.2 digits]
  rcases Nat.eq_zero_or_pos n with rfl | positive
  · rfl
  · obtain ⟨c, rest, form, nonzero⟩ := head_toDigits_ne positive
    simp only [scanNumeral, taken]
    simp [form, nonzero, scanFraction, scanExponent]

/-- Whether a text is a numeral, up to spaces after it, and denotes a value. -/
def IsNumeral (text : List Char) (value : Json) : Prop :=
  ∃ numeral left, scanScalar text = some (.number numeral, left) ∧ skipSpaces left = [] ∧
    numeral.value? = some value

theorem isNumeral_writeInt {value : Int}
    (fits : (Word.isSigned value || Word.isUnsigned value) = true) :
    IsNumeral (writeInt value) (.int value) := by
  simp only [Word.isSigned, Word.isUnsigned, Bool.or_eq_true, Bool.and_eq_true,
    decide_eq_true_eq] at fits
  cases value with
  | ofNat n =>
      refine ⟨⟨false, (Nat.toDigits 10 n).map digitValue, none, none⟩, [], ?_, rfl, ?_⟩
      · obtain ⟨c, rest, form, digit⟩ := digit_of_scanNumeral (scanNumeral_toDigits false n)
        show scanScalar (Nat.toDigits 10 n) = _
        rw [form, scanScalar_of_digit digit, ← form, scanNumeral_toDigits]
        rfl
      · have small : Nat.ofDigitChars 10 (Nat.toDigits 10 n) 0 ≤ Numeral.greatestWord := by
          rw [Nat.ofDigitChars_ten_toDigits]
          simp only [Numeral.greatestWord, Word.size, Word.half, Int.ofNat_eq_natCast] at fits ⊢
          omega
        simp only [Numeral.value?, gather_digits small, Nat.ofDigitChars_ten_toDigits]
        simp
  | negSucc n =>
      refine ⟨⟨true, (Nat.toDigits 10 (n + 1)).map digitValue, none, none⟩, [], ?_, rfl, ?_⟩
      · show scanScalar ('-' :: Nat.toDigits 10 (n + 1)) = _
        rw [scanScalar, scanNumeral_toDigits]
        rfl
      · have small : Nat.ofDigitChars 10 (Nat.toDigits 10 (n + 1)) 0 ≤ Numeral.greatestWord := by
          rw [Nat.ofDigitChars_ten_toDigits]
          simp only [Numeral.greatestWord, Word.size, Word.half] at fits ⊢
          omega
        have bound : ¬(n + 1 = 0 ∨ Word.half < n + 1) := by
          simp only [Word.size, Word.half] at fits ⊢
          omega
        simp only [Numeral.value?, gather_digits small, Nat.ofDigitChars_ten_toDigits, if_neg bound]
        rw [Int.negSucc_eq]
        simp

end KeyLayers.Json
