import KeyLayers.Modifier
import KeyLayers.Notation.Scan
import KeyLayers.Proofs.Outcome
import Mathlib.Data.List.DropRight
import Mathlib.Data.List.TakeWhile

/-!
# Words of the notation

What the steps of the grammar read, said without the steps: a trimmed text is
trimmed already, a word of a table is read where it stands before a sign
(`firstWord?_sign_iff`), and segments are the texts that the separators stand
between (`segments_eq_iff`).

A name of the vocabulary is looked up by its folded form first among the names
and then among the aliases.  They have no text in common, so the order makes no
difference, and a text spells a key or a modifier if it is in either table
(`Key.parse_eq_ok_iff`, `Modifier.parse_eq_ok_iff`).
-/

namespace KeyLayers

/-! ## Trimmed texts -/

namespace Text

/-- Dropping some blanks at the beginning makes no difference to a trimmed text. -/
theorem trimBlanks_dropWhile {p : Char → Bool} (blank : ∀ c, p c = true → isBlank c = true)
    (text : List Char) : trimBlanks (text.dropWhile p) = trimBlanks text := by
  have same : (text.dropWhile p).dropWhile isBlank = text.dropWhile isBlank := by
    induction text with
    | nil => rfl
    | cons c rest ih =>
        by_cases dropped : p c = true
        · rw [List.dropWhile_cons_of_pos dropped, ih,
            List.dropWhile_cons_of_pos (blank c dropped)]
        · rw [List.dropWhile_cons_of_neg dropped]
  rw [trimBlanks, same, trimBlanks]

theorem trimBlanks_trimBlanks (text : List Char) :
    trimBlanks (trimBlanks text) = trimBlanks text := by
  have begins : (trimBlanks text).dropWhile isBlank = trimBlanks text := by
    rw [List.dropWhile_eq_self_iff]
    intro nonempty
    -- what trimming leaves begins as the text does behind its leading blanks
    have isPrefix : trimBlanks text <+: text.dropWhile isBlank :=
      List.rdropWhile_prefix isBlank _
    rw [isPrefix.getElem nonempty]
    exact List.dropWhile_get_zero_not isBlank text (nonempty.trans_le isPrefix.length_le)
  calc trimBlanks (trimBlanks text)
      = dropTrailing isBlank (trimBlanks text) := by rw [trimBlanks, begins]
    _ = trimBlanks text := List.rdropWhile_idempotent isBlank _

@[simp]
theorem trim_trim (text : String) : trim (trim text) = trim text := by
  rw [trim, toList_trim, trimBlanks_trimBlanks, trim]

end Text

/-! ## Names of the vocabulary -/

/-- Of two tables without a common text it does not matter which is looked at first. -/
theorem orElse_eq_some_iff {α : Type} {first second : Option α} {value : α}
    (apart : second = some value → first = none) :
    (first <|> second) = some value ↔ first = some value ∨ second = some value := by
  cases first with
  | none => simp
  | some other =>
      constructor
      · exact .inl
      · rintro (found | found)
        · exact found
        · cases apart found

namespace Key

theorem ofName?_eq_some_iff {name : String} {key : Key} :
    ofName? name = some key ↔ name = key.name := by
  constructor
  · exact fun found => (name_of_ofName? found).symm
  · rintro rfl
    exact ofName?_name key

theorem nodup_aliases : (aliases.map Prod.fst).Nodup := by decide +kernel

theorem not_mem_names_of_mem_aliases {spelling name : String}
    (paired : (spelling, name) ∈ aliases) : spelling ∉ names := by
  have apart : ∀ entry ∈ aliases, entry.1 ∉ names := by decide +kernel
  exact apart _ paired

/-- Whether a text without its letter case and outer blanks is the name or an alias of a key. -/
def SpelledBy (key : Key) (text : String) : Prop :=
  Text.fold text = key.name ∨ (Text.fold text, key.name) ∈ aliases

theorem parse_eq_ok_iff {name : String} {key : Key} :
    parse name = .ok key ↔ key.SpelledBy name := by
  rw [SpelledBy]
  generalize spelled : Text.fold name = spelling
  have resolved : parse name = .ok key ↔ ofSpelling? spelling = some key := by
    rw [parse, spelled]
    cases ofSpelling? spelling <;> simp
  have byAlias : (aliases.lookup spelling).bind ofName? = some key ↔
      (spelling, key.name) ∈ aliases := by
    rw [Option.bind_eq_some_iff, ← lookup_eq_some_iff nodup_aliases]
    constructor
    · rintro ⟨name, found, resolves⟩
      rw [found, ofName?_eq_some_iff.1 resolves]
    · exact fun found => ⟨key.name, found, ofName?_name key⟩
  rw [resolved, ofSpelling?, orElse_eq_some_iff, ofName?_eq_some_iff, byAlias]
  intro found
  rw [ofName?, dif_neg (not_mem_names_of_mem_aliases (byAlias.1 found))]

end Key

namespace Modifier

theorem ofName?_eq_some_iff {name : String} {modifier : Modifier} :
    ofName? name = some modifier ↔ name = modifier.name := by
  constructor
  · intro found
    have same := List.find?_some found
    exact (beq_iff_eq.1 same).symm
  · rintro rfl
    exact ofName?_name modifier

theorem nodup_aliases : (aliases.map Prod.fst).Nodup := by decide +kernel

theorem ne_name_of_mem_aliases {spelling : String} {modifier : Modifier}
    (paired : (spelling, modifier) ∈ aliases) (other : Modifier) : spelling ≠ other.name := by
  have apart : ∀ entry ∈ aliases, ∀ other ∈ all, entry.1 ≠ other.name := by decide +kernel
  exact apart _ paired other (mem_all other)

/--
Whether a text without its letter case and outer blanks is the name or an alias
of a modifier.
-/
def SpelledBy (modifier : Modifier) (text : String) : Prop :=
  Text.fold text = modifier.name ∨ (Text.fold text, modifier) ∈ aliases

theorem parse_eq_ok_iff {name : String} {modifier : Modifier} :
    parse name = .ok modifier ↔ modifier.SpelledBy name := by
  rw [SpelledBy]
  generalize spelled : Text.fold name = spelling
  have resolved : parse name = .ok modifier ↔ ofSpelling? spelling = some modifier := by
    rw [parse, spelled]
    cases ofSpelling? spelling <;> simp
  rw [resolved, ofSpelling?, orElse_eq_some_iff, ofName?_eq_some_iff,
    lookup_eq_some_iff nodup_aliases]
  intro found
  rw [Option.eq_none_iff_forall_ne_some]
  exact fun other named =>
    ne_name_of_mem_aliases (mem_of_lookup found) other (ofName?_eq_some_iff.1 named)

theorem group?_eq_some_iff {name : String} {group : List Modifier} :
    group? name = some group ↔
      Text.fold name = "hyper" ∧ group = hyper ∨ Text.fold name = "meh" ∧ group = meh := by
  generalize spelled : Text.fold name = spelling
  rw [group?, spelled]
  split
  · simp [eq_comm]
  · simp [eq_comm]
  next notHyper notMeh =>
    refine iff_of_false nofun ?_
    rintro (⟨isHyper, -⟩ | ⟨isMeh, -⟩)
    · exact notHyper isHyper
    · exact notMeh isMeh

end Modifier

/-! ## A word before a sign -/

namespace Notation

/-- Whether a character is one of those that may stand before and behind a sign. -/
def IsInline (c : Char) : Prop :=
  c = ' ' ∨ c = '\t'
deriving Decidable

theorem isBlank_of_isInline {c : Char} (inline : IsInline c) : Text.isBlank c = true := by
  rcases inline with rfl | rfl
  · decide
  · decide

theorem trim_skipInline (text : List Char) :
    Text.trim (String.ofList (skipInline text)) = Text.trim (String.ofList text) := by
  rw [Text.trim, Text.trim, String.toList_ofList, String.toList_ofList, skipInline,
    Text.trimBlanks_dropWhile]
  intro c inline
  exact isBlank_of_isInline (by simpa [IsInline] using inline)

/-- What is left behind spaces and tabs begins with a sign exactly if they stand before it. -/
theorem skipInline_eq_cons_iff {sign : Char} (solid : ¬ IsInline sign) {text rest : List Char} :
    skipInline text = sign :: rest ↔
      ∃ blanks, (∀ c ∈ blanks, IsInline c) ∧ text = blanks ++ sign :: rest := by
  have skip : skipInline text = text.dropWhile (IsInline ·) := by
    rw [skipInline]
    congr 1
    funext c
    rw [Bool.eq_iff_iff, decide_eq_true_iff]
    simp [IsInline]
  rw [skip]
  constructor
  · intro skipped
    refine ⟨text.takeWhile (IsInline ·), ?_, ?_⟩
    · intro c member
      exact of_decide_eq_true (List.mem_takeWhile_imp (p := (IsInline ·)) member)
    · rw [← skipped, List.takeWhile_append_dropWhile]
  · rintro ⟨blanks, inlines, rfl⟩
    rw [List.dropWhile_append_of_pos fun c member => decide_eq_true (inlines c member),
      List.dropWhile_cons_of_neg (by simpa using solid)]

section

variable {α : Type} {words : List (String × α)} {sign : Char}

/-- Whether the words of a table can be told apart in front of a sign. -/
structure Separable (words : List (String × α)) (sign : Char) : Prop where
  /-- No word begins with an earlier one. -/
  apart : words.Pairwise fun earlier later => after? earlier.1.toList later.1.toList = none
  /-- No word has a space, a tab or the sign in it. -/
  solid : ∀ entry ∈ words, ∀ c ∈ entry.1.toList, ¬ IsInline c ∧ c ≠ sign
  sign : ¬ IsInline sign

/-- A word in front of others that do not go on like it begins one of them only alone. -/
theorem prefix_of_prefix_append {word other behind : List Char}
    (differ : ∀ c ∈ behind.head?, c ∉ other) (isPrefix : other <+: word ++ behind) :
    other <+: word := by
  rcases List.prefix_or_prefix_of_prefix isPrefix (List.prefix_append word behind) with
    shorter | ⟨more, rfl⟩
  · exact shorter
  · cases more with
    | nil => simp
    | cons c more =>
        have next := (List.prefix_append_right_inj word).1 isPrefix
        rcases next with ⟨rest, rfl⟩
        exact (differ c (by simp) (by simp)).elim

theorem firstWord?_of_mem (separable : Separable words sign) {word : String} {meaning : α}
    (member : (word, meaning) ∈ words) {behind : List Char}
    (ends : ∀ c ∈ behind.head?, IsInline c ∨ c = sign) :
    firstWord? words (word.toList ++ behind) = some (meaning, behind) := by
  have read : after? word.toList (word.toList ++ behind) = some behind :=
    after?_eq_some_iff.2 rfl
  rcases List.append_of_mem member with ⟨before, others, rfl⟩
  rw [firstWord?, List.findSome?_append, List.findSome?_eq_none_iff.2 ?_]
  · simp [read]
  rintro ⟨earlier, other⟩ among
  rw [Option.map_eq_none_iff, Option.eq_none_iff_forall_ne_some]
  intro rest found
  have isPrefix : earlier.toList <+: word.toList ++ behind :=
    ⟨rest, (after?_eq_some_iff.1 found).symm⟩
  suffices differ : ∀ c ∈ behind.head?, c ∉ earlier.toList by
    rcases prefix_of_prefix_append differ isPrefix with ⟨more, goesOn⟩
    have apart := (List.pairwise_append.1 separable.apart).2.2 _ among _ (.head _)
    cases apart.symm.trans (after?_eq_some_iff.2 goesOn.symm)
  intro c first within
  have solid := separable.solid _ (List.mem_append_left _ among) c within
  rcases ends c first with inline | same
  · exact solid.1 inline
  · exact solid.2 same

/-- A word of a table, and what follows a sign behind it. -/
theorem firstWord?_sign_iff (separable : Separable words sign) {meaning : α}
    {text rest : List Char} :
    (∃ left, firstWord? words text = some (meaning, left) ∧ skipInline left = sign :: rest) ↔
      ∃ word blanks, (word, meaning) ∈ words ∧ (∀ c ∈ blanks, IsInline c) ∧
        text = word.toList ++ blanks ++ sign :: rest := by
  constructor
  · rintro ⟨left, found, skipped⟩
    rcases List.exists_of_findSome?_eq_some found with ⟨⟨word, other⟩, member, read⟩
    rcases Option.map_eq_some_iff.1 read with ⟨behind, after, same⟩
    obtain ⟨rfl, rfl⟩ := Prod.mk.inj same
    rcases (skipInline_eq_cons_iff separable.sign).1 skipped with ⟨blanks, inlines, rfl⟩
    refine ⟨word, blanks, member, inlines, ?_⟩
    rw [after?_eq_some_iff.1 after, List.append_assoc]
  · rintro ⟨word, blanks, member, inlines, rfl⟩
    refine ⟨blanks ++ sign :: rest, ?_, ?_⟩
    · rw [List.append_assoc]
      apply firstWord?_of_mem separable member
      cases blanks with
      | nil => simp
      | cons c more => simpa using Or.inl (inlines c (.head _))
    · exact (skipInline_eq_cons_iff separable.sign).2 ⟨blanks, inlines, rfl⟩

end

/-! ## Segments -/

theorem segments_eq_splitOn (separator : Char) (text : List Char) :
    segments separator text = text.splitOn separator := by
  induction text with
  | nil => rfl
  | cons c rest ih =>
      have step : (c :: rest).splitOn separator =
          if c = separator then [] :: rest.splitOn separator
          else (rest.splitOn separator).modifyHead (c :: ·) := by
        simpa [List.splitOn] using
          List.splitOnP_cons_eq_if_modifyHead (p := (· == separator)) c rest
      rw [segments, ih, step]
      cases split : rest.splitOn separator with
      | nil => exact (List.splitOn_ne_nil separator rest split).elim
      | cons first others => rfl

theorem not_mem_of_mem_segments {separator : Char} {text part : List Char}
    (member : part ∈ segments separator text) : separator ∉ part := by
  induction text generalizing part with
  | nil =>
      rw [segments, List.mem_singleton] at member
      subst member
      exact List.not_mem_nil
  | cons c rest ih =>
      rw [segments] at member
      split at member
      · rcases List.mem_cons.1 member with rfl | later
        · exact List.not_mem_nil
        · exact ih later
      next differs =>
      split at member
      next nothing =>
        simp [segments_eq_splitOn, List.splitOn_ne_nil] at nothing
      next first others parts =>
        rcases List.mem_cons.1 member with rfl | later
        · have free : separator ∉ first := ih (parts ▸ List.mem_cons_self)
          simp [free, Ne.symm differs]
        · exact ih (parts ▸ List.mem_cons_of_mem _ later)

/-- The segments of a text are the texts without separators that it is joined from. -/
theorem segments_eq_iff {separator : Char} {text : List Char} {parts : List (List Char)} :
    segments separator text = parts ↔
      parts ≠ [] ∧ (∀ part ∈ parts, separator ∉ part) ∧
        text = [separator].intercalate parts := by
  constructor
  · rintro rfl
    refine ⟨?_, fun part member => not_mem_of_mem_segments member, ?_⟩
    · rw [segments_eq_splitOn]
      exact List.splitOn_ne_nil separator text
    · rw [segments_eq_splitOn, List.intercalate_splitOn]
  · rintro ⟨nonempty, free, rfl⟩
    rw [segments_eq_splitOn, List.splitOn_intercalate separator free nonempty]

end Notation

end KeyLayers
