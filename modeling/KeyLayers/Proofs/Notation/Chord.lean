import KeyLayers.Proofs.Notation.Grammar

/-!
# The normal form of chords

A chord that is read has its modifiers in canonical order, each of them once, and all of them
can be sent.  Its displayed form is read back as the same chord.  What is read depends only on
the key and on the set of modifiers that the tokens stand for (`parseChord_normal_form`).

The blanks around a chord are taken away before it is cut into tokens, those around a token only
when the token is looked up.  Since no plus sign is blank, both together leave each token as it is
but for blanks around it (`exists_trimmed`), and no look-up sees those.
-/

namespace KeyLayers

/-! ## Lists in step -/

section

variable {α β γ : Type} {R : α → β → Prop} {S : β → γ → Prop} {T : α → γ → Prop}

theorem exists_mem_of_forall₂ {left : List α} {right : List β}
    (related : List.Forall₂ R left right) {b : β} (member : b ∈ right) : ∃ a ∈ left, R a b := by
  induction related with
  | nil => cases member
  | @cons a other left right first _ ih =>
      rcases List.mem_cons.1 member with rfl | later
      · exact ⟨a, .head _, first⟩
      · rcases ih later with ⟨found, among, same⟩
        exact ⟨found, .tail _ among, same⟩

theorem forall₂_comp (comp : ∀ a b c, R a b → S b c → T a c) {left : List α}
    {middle : List β} {right : List γ} (first : List.Forall₂ R left middle)
    (second : List.Forall₂ S middle right) : List.Forall₂ T left right := by
  induction first generalizing right with
  | nil =>
      cases second
      exact .nil
  | cons related _ ih =>
      cases second with
      | cons next others => exact .cons (comp _ _ _ related next) (ih others)

theorem exists_of_forall₂_concat {front : List α} {final : α} {right : List β}
    (related : List.Forall₂ R (front ++ [final]) right) :
    ∃ others other, right = others ++ [other] ∧ List.Forall₂ R front others ∧ R final other := by
  have turned := List.forall₂_reverse_iff.2 related
  rw [List.reverse_append, List.reverse_singleton, List.singleton_append,
    List.forall₂_cons_left_iff] at turned
  rcases turned with ⟨other, others, last, before, split⟩
  refine ⟨others.reverse, other, ?_, ?_, last⟩
  · rw [← List.reverse_reverse right, split, List.reverse_cons]
  · rw [← List.forall₂_reverse_iff, List.reverse_reverse]
    exact before

end

/-! ## Trimming a joined text -/

namespace Text

theorem dropTrailing_cons (p : Char → Bool) (c : Char) (rest : List Char) :
    dropTrailing p (c :: rest) =
      if dropTrailing p rest = [] ∧ p c = true then [] else c :: dropTrailing p rest := by
  rw [dropTrailing, List.reverse_cons, List.dropWhile_append]
  cases left : rest.reverse.dropWhile p with
  | nil => cases holds : p c <;> simp [dropTrailing, left, holds]
  | cons d others => simp [dropTrailing, left]

/-- It makes no difference at which end blanks are dropped first. -/
theorem dropTrailing_dropWhile (p : Char → Bool) (text : List Char) :
    dropTrailing p (text.dropWhile p) = (dropTrailing p text).dropWhile p := by
  induction text with
  | nil => rfl
  | cons c rest ih =>
      rw [dropTrailing_cons]
      cases holds : p c with
      | true =>
          rw [List.dropWhile_cons_of_pos holds, ih]
          split
          next nothing => rw [nothing.1]
          next => rw [List.dropWhile_cons_of_pos holds]
      | false => simp [holds, dropTrailing_cons]

/-- A text that is not dropped keeps everything before it. -/
theorem dropTrailing_append_cons {p : Char → Bool} {c : Char} (kept : p c = false)
    (front rest : List Char) :
    dropTrailing p (front ++ c :: rest) = front ++ c :: dropTrailing p rest := by
  induction front with
  | nil => simp [dropTrailing_cons, kept]
  | cons d front ih => simp [dropTrailing_cons, ih]

theorem dropWhile_append_cons {p : Char → Bool} {c : Char} (kept : p c = false)
    (front rest : List Char) :
    (front ++ c :: rest).dropWhile p = front.dropWhile p ++ c :: rest := by
  induction front with
  | nil => simp [kept]
  | cons d front ih => cases dropped : p d <;> simp [dropped, ih]

/-- Whether one text is the other without some of the blanks around it. -/
structure IsTrimmed (text rest : List Char) : Prop where
  trim_eq : trimBlanks rest = trimBlanks text
  subset : rest ⊆ text

theorem IsTrimmed.refl (text : List Char) : IsTrimmed text text :=
  ⟨rfl, fun _ member => member⟩

theorem IsTrimmed.trans {text middle rest : List Char} (first : IsTrimmed text middle)
    (second : IsTrimmed middle rest) : IsTrimmed text rest :=
  ⟨second.trim_eq.trans first.trim_eq, fun _ member => first.subset (second.subset member)⟩

theorem isTrimmed_dropWhile (text : List Char) : IsTrimmed text (text.dropWhile isBlank) where
  trim_eq := trimBlanks_dropWhile (fun _ blank => blank) text
  subset := (List.dropWhile_sublist isBlank).subset

theorem isTrimmed_dropTrailing (text : List Char) :
    IsTrimmed text (dropTrailing isBlank text) where
  trim_eq := by
    rw [trimBlanks, ← dropTrailing_dropWhile]
    exact List.rdropWhile_idempotent isBlank _
  subset := (List.rdropWhile_prefix isBlank text).subset

section

variable {separator : Char} (kept : isBlank separator = false)

include kept

theorem exists_dropWhile_joined (parts : List (List Char)) :
    ∃ rest, ([separator].intercalate parts).dropWhile isBlank = [separator].intercalate rest ∧
      List.Forall₂ IsTrimmed parts rest := by
  cases parts with
  | nil => exact ⟨[], rfl, .nil⟩
  | cons part others =>
      refine ⟨part.dropWhile isBlank :: others, ?_, .cons (isTrimmed_dropWhile part) ?_⟩
      · cases others with
        | nil => simp
        | cons next others =>
            simp only [List.intercalate_cons_cons, List.append_assoc, List.singleton_append]
            rw [dropWhile_append_cons kept]
      · exact List.forall₂_same.2 fun other _ => .refl other

theorem exists_dropTrailing_joined (parts : List (List Char)) :
    ∃ rest, dropTrailing isBlank ([separator].intercalate parts) = [separator].intercalate rest ∧
      List.Forall₂ IsTrimmed parts rest := by
  induction parts with
  | nil => exact ⟨[], rfl, .nil⟩
  | cons part others ih =>
      cases others with
      | nil =>
          refine ⟨[dropTrailing isBlank part], ?_, .cons (isTrimmed_dropTrailing part) .nil⟩
          simp
      | cons next others =>
          rcases ih with ⟨rest, joined, trimmed⟩
          refine ⟨part :: rest, ?_, .cons (.refl part) trimmed⟩
          have nonempty : rest ≠ [] := by
            rintro rfl
            cases trimmed
          rw [List.intercalate_cons_cons, List.intercalate_cons_of_ne_nil nonempty, ← joined,
            List.append_assoc, List.append_assoc]
          exact dropTrailing_append_cons kept part _

/-- A joined text without the blanks around it is joined from the same parts but for blanks. -/
theorem exists_trimmed (parts : List (List Char)) :
    ∃ rest, trimBlanks ([separator].intercalate parts) = [separator].intercalate rest ∧
      List.Forall₂ IsTrimmed parts rest := by
  rcases exists_dropWhile_joined kept parts with ⟨middle, begun, first⟩
  rcases exists_dropTrailing_joined kept middle with ⟨rest, ended, second⟩
  refine ⟨rest, ?_, ?_⟩
  · rw [trimBlanks, begun, ended]
  · exact forall₂_comp (fun _ _ _ => .trans) first second

end

end Text

namespace Modifier

/-- The place of a modifier in the canonical order, that of the constructors. -/
def rank (modifier : Modifier) : Nat :=
  modifier.ctorIdx

theorem canonical_pairwise (modifiers : List Modifier) :
    (canonical modifiers).Pairwise fun left right => left.rank < right.rank := by
  have ordered : all.Pairwise fun left right => left.rank < right.rank := by decide
  exact ordered.filter _

end Modifier

namespace Notation

/-! ## Tokens but for blanks around them -/

/-- A text that is joined by plus signs, trimmed: its tokens but for blanks around them. -/
theorem exists_trim_joined (tokens : List String) :
    ∃ rest : List String, Text.trim ("+".intercalate tokens) = "+".intercalate rest ∧
      List.Forall₂ (fun token other : String => Text.IsTrimmed token.toList other.toList)
        tokens rest := by
  rcases Text.exists_trimmed (show Text.isBlank '+' = false by decide)
    (tokens.map String.toList) with ⟨parts, joined, trimmed⟩
  refine ⟨parts.map String.ofList, ?_, ?_⟩
  · rw [← String.toList_inj, Text.toList_trim, String.toList_intercalate,
      String.toList_intercalate]
    simpa [Function.comp_def] using joined
  · rw [List.forall₂_map_right_iff]
    simpa using trimmed

theorem fold_eq_of_isTrimmed {token other : String}
    (trimmed : Text.IsTrimmed token.toList other.toList) : Text.fold other = Text.fold token := by
  simp [Text.fold, trimmed.trim_eq]

theorem TokenModifiers.of_isTrimmed {token other : String} {group : List Modifier}
    (trimmed : Text.IsTrimmed token.toList other.toList) (reads : TokenModifiers token group) :
    TokenModifiers other group := by
  have same := fold_eq_of_isTrimmed trimmed
  cases reads with
  | hyper spelled => exact .hyper (same.trans spelled)
  | meh spelled => exact .meh (same.trans spelled)
  | single spelled sent =>
      refine .single ?_ sent
      rw [Modifier.SpelledBy, same]
      exact spelled

theorem spelledBy_of_isTrimmed {key : Key} {token other : String}
    (trimmed : Text.IsTrimmed token.toList other.toList) (spelled : key.SpelledBy token) :
    key.SpelledBy other := by
  rw [Key.SpelledBy, fold_eq_of_isTrimmed trimmed]
  exact spelled

theorem not_spelledBy_empty (key : Key) : ¬ key.SpelledBy "" := by
  have names : ∀ name ∈ Key.names, Text.fold "" ≠ name := by decide +kernel
  have aliases : ∀ entry ∈ Key.aliases, Text.fold "" ≠ entry.1 := by decide +kernel
  rintro (named | paired)
  · exact names key.name key.known named
  · exact aliases _ paired rfl

theorem not_tokenModifiers_empty (group : List Modifier) : ¬ TokenModifiers "" group := by
  have names : ∀ modifier ∈ Modifier.all, Text.fold "" ≠ modifier.name := by decide +kernel
  have aliases : ∀ entry ∈ Modifier.aliases, Text.fold "" ≠ entry.1 := by decide +kernel
  intro reads
  cases reads with
  | hyper spelled => exact absurd spelled (by decide +kernel)
  | meh spelled => exact absurd spelled (by decide +kernel)
  | @single modifier spelled sent =>
      rcases spelled with named | paired
      · exact names modifier (Modifier.mem_all modifier) named
      · exact aliases _ paired rfl

/-- A text that is joined from tokens is read as the chord that the tokens stand for. -/
theorem parseChord_joined {before : List String} {last : String} {groups : List (List Modifier)}
    {key : Key} (free : ∀ token ∈ before ++ [last], '+' ∉ token.toList)
    (modifiers : List.Forall₂ TokenModifiers before groups) (spelled : key.SpelledBy last) :
    parseChord ("+".intercalate (before ++ [last])) = .ok (Chord.of key groups.flatten) := by
  rcases exists_trim_joined (before ++ [last]) with ⟨tokens, joined, trimmed⟩
  have free : ∀ token ∈ tokens, '+' ∉ token.toList := by
    intro token member
    rcases exists_mem_of_forall₂ trimmed member with ⟨whole, among, part⟩
    exact fun plus => free whole among (part.subset plus)
  rcases exists_of_forall₂_concat trimmed with ⟨others, other, rfl, front, final⟩
  have modifiers : List.Forall₂ TokenModifiers others groups := by
    refine forall₂_comp ?_ (List.Forall₂.flip front) modifiers
    intro other token group part reads
    exact reads.of_isTrimmed part
  have spelled : key.SpelledBy other := spelledBy_of_isTrimmed final spelled
  rw [parseChord_eq_ok_iff]
  refine .tokens joined (fun token member => ⟨?_, free token member⟩) modifiers spelled
  rintro rfl
  rcases List.mem_append.1 member with among | ends
  · rcases exists_mem_of_forall₂ (List.Forall₂.flip modifiers) among with ⟨group, -, reads⟩
    exact not_tokenModifiers_empty group reads
  · rw [List.mem_singleton] at ends
    exact not_spelledBy_empty key (ends ▸ spelled)

/-! ## The normal form -/

theorem sent_of_tokenModifiers {token : String} {group : List Modifier}
    (reads : TokenModifiers token group) : .any ∉ group := by
  cases reads with
  | hyper => decide
  | meh => decide
  | single _ sent => simpa using Ne.symm sent

theorem any_not_mem_of_chordText {text : String} {chord : Chord} (reads : ChordText text chord) :
    .any ∉ chord.modifiers := by
  cases reads with
  | tokens joined solid modifiers spelled =>
      rw [Chord.modifiers_of, Modifier.mem_canonical, List.mem_flatten]
      rintro ⟨group, among, member⟩
      rcases exists_mem_of_forall₂ modifiers among with ⟨token, -, reads⟩
      exact sent_of_tokenModifiers reads member

theorem of_key_modifiers_of_chordText {text : String} {chord : Chord}
    (reads : ChordText text chord) : Chord.of chord.key chord.modifiers = chord := by
  cases reads
  rw [Chord.key_of, Chord.modifiers_of, Chord.of, Modifier.canonical_canonical, Chord.of]

/-- The displayed form of a chord in normal form is read back as the chord. -/
theorem parseChord_display {chord : Chord}
    (normal : Chord.of chord.key chord.modifiers = chord) (sent : .any ∉ chord.modifiers) :
    parseChord chord.display = .ok chord := by
  have names : ∀ modifier ∈ Modifier.all, '+' ∉ modifier.name.toList := by decide +kernel
  have keys : ∀ name ∈ Key.names, '+' ∉ name.toList := by decide +kernel
  have modifiers : List.Forall₂ TokenModifiers (chord.modifiers.map Modifier.name)
      (chord.modifiers.map ([·])) := by
    rw [List.forall₂_map_left_iff, List.forall₂_map_right_iff, List.forall₂_same]
    intro modifier member
    exact .single (.inl modifier.fold_name) (ne_of_mem_of_not_mem member sent)
  have free : ∀ token ∈ chord.modifiers.map Modifier.name ++ [chord.key.name],
      '+' ∉ token.toList := by
    intro token member
    rcases List.mem_append.1 member with named | ends
    · rcases List.mem_map.1 named with ⟨modifier, -, rfl⟩
      exact names modifier (Modifier.mem_all modifier)
    · rw [List.mem_singleton] at ends
      exact ends ▸ keys chord.key.name chord.key.known
  rw [Chord.display, parseChord_joined free modifiers (.inl chord.key.fold_name)]
  have held : (chord.modifiers.map ([·])).flatten = chord.modifiers := by
    rw [← List.flatMap_def, List.flatMap_singleton']
  rw [held, normal]

/--
Whether tokens stand for a key, the last of them, and for a set of modifiers held with it: each
token in front of the key by name, alias or group, in any order and any number of times.
-/
structure Denotes (before : List String) (last : String) (key : Key)
    (held : Modifier → Prop) : Prop where
  solid : ∀ token ∈ before ++ [last], token ≠ "" ∧ '+' ∉ token.toList
  spelled : key.SpelledBy last
  /-- What the tokens stand for, once groups are expanded. -/
  expands : ∃ groups, List.Forall₂ TokenModifiers before groups ∧
    ∀ modifier, held modifier ↔ modifier ∈ groups.flatten

/--
A chord that is read has its modifiers in canonical order, each of them once and none of them
`any`, and is read again from its displayed form.  Tokens that stand for the same key and the same
modifiers are read, joined by plus signs, as the same chord.
-/
theorem parseChord_normal_form :
    (∀ text chord, parseChord text = .ok chord →
      (chord.modifiers.Pairwise fun left right => left.rank < right.rank) ∧
        .any ∉ chord.modifiers ∧ parseChord chord.display = .ok chord) ∧
      ∀ before last other final key held,
        Denotes before last key held → Denotes other final key held →
          ∃ chord : Chord, chord.key = key ∧
            (∀ modifier, modifier ∈ chord.modifiers ↔ held modifier) ∧
              parseChord ("+".intercalate (before ++ [last])) = .ok chord ∧
                parseChord ("+".intercalate (other ++ [final])) = .ok chord := by
  constructor
  · intro text chord read
    have reads := parseChord_eq_ok_iff.1 read
    have normal := of_key_modifiers_of_chordText reads
    have sent := any_not_mem_of_chordText reads
    refine ⟨?_, sent, parseChord_display normal sent⟩
    rw [← normal]
    exact Modifier.canonical_pairwise chord.modifiers
  · intro before last other final key held left right
    rcases left.expands with ⟨groups, modifiers, heldLeft⟩
    rcases right.expands with ⟨others, same, heldRight⟩
    refine ⟨Chord.of key groups.flatten, rfl, ?_, ?_, ?_⟩
    · intro modifier
      rw [Chord.modifiers_of, Modifier.mem_canonical, heldLeft]
    · exact parseChord_joined (fun token member => (left.solid token member).2) modifiers
        left.spelled
    · rw [parseChord_joined (fun token member => (right.solid token member).2) same right.spelled,
        Chord.of, Chord.of, Modifier.canonical_congr]
      intro modifier
      rw [← heldLeft, heldRight]

namespace Sample

theorem letter_known : "t" ∈ Key.names := by decide

def letter : Key := ⟨"t", letter_known⟩

def bothCommands : List Modifier :=
  [.leftControl, .leftOption, .leftShift, .leftCommand, .rightCommand]

theorem grouped_denotes :
    Denotes ["hyper", " RCMD "] "T" letter (· ∈ bothCommands) where
  solid := by decide +kernel
  spelled := .inl (by decide +kernel)
  expands := by
    refine ⟨[Modifier.hyper, [.rightCommand]], .cons ?_ (.cons ?_ .nil),
      fun modifier => by cases modifier <;> decide⟩
    · exact .hyper (by decide +kernel)
    · exact .single (.inr (by decide +kernel)) (by decide)

theorem listed_denotes :
    Denotes ["⌘", "right_command", "MEH", "alt", "rcmd"] " t" letter (· ∈ bothCommands) where
  solid := by decide +kernel
  spelled := .inl (by decide +kernel)
  expands := by
    refine ⟨[[.leftCommand], [.rightCommand], Modifier.meh, [.leftOption], [.rightCommand]],
      .cons ?_ (.cons ?_ (.cons ?_ (.cons ?_ (.cons ?_ .nil)))),
      fun modifier => by cases modifier <;> decide⟩
    · exact .single (.inr (by decide +kernel)) (by decide)
    · exact .single (.inl (by decide +kernel)) (by decide)
    · exact .meh (by decide +kernel)
    · exact .single (.inr (by decide +kernel)) (by decide)
    · exact .single (.inr (by decide +kernel)) (by decide)

theorem respelled_chord_equal :
    ∃ chord : Chord, parseChord "hyper+ RCMD +T" = .ok chord ∧
      parseChord "⌘+right_command+MEH+alt+rcmd+ t" = .ok chord ∧
        .leftShift ∈ chord.modifiers ∧ .any ∉ chord.modifiers ∧
          parseChord chord.display = .ok chord := by
  rcases parseChord_normal_form.2 _ _ _ _ _ _ grouped_denotes listed_denotes with
    ⟨chord, -, held, grouped, listed⟩
  rcases parseChord_normal_form.1 _ _ grouped with ⟨-, sent, displayed⟩
  exact ⟨chord, grouped, listed, (held .leftShift).2 (by decide), sent, displayed⟩

end Sample

end Notation

end KeyLayers
