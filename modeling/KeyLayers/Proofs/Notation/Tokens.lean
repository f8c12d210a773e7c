import KeyLayers.Notation.Chord
import KeyLayers.Proofs.Notation.Words

/-!
# Tokens of a chord

Cutting a text at its plus signs loses nothing and does not stop early: the tokens, joined by
plus signs, and the rest are the whole text, and the rest is nothing or a plus sign that no token
follows.  Only one cut of a text is like that, and it is the one that is made
(`chordTokens_eq_ok_iff`).

A plus sign that no token follows stands before an empty segment.  So the segments behind the
tokens, each with the plus sign in front of it, are the rest, and they can be read off the rest
again (`isStop_iff`).
-/

namespace KeyLayers

/-- What is trimmed off a text is blank. -/
theorem Text.exists_trim (text : String) :
    ∃ front back : String, (∀ c ∈ (front ++ back).toList, isBlank c = true) ∧
      text = front ++ trim text ++ back := by
  have begins := List.takeWhile_append_dropWhile (p := isBlank) (l := text.toList)
  have ends := List.rdropWhile_append_rtakeWhile
    (p := isBlank) (l := text.toList.dropWhile isBlank)
  refine ⟨.ofList (text.toList.takeWhile isBlank),
    .ofList ((text.toList.dropWhile isBlank).rtakeWhile isBlank), ?_, ?_⟩
  · intro c member
    rw [String.toList_append, String.toList_ofList, String.toList_ofList] at member
    rcases List.mem_append.1 member with before | after
    · exact List.mem_takeWhile_imp before
    · exact List.mem_rtakeWhile_imp after
  · have trimmed : trimBlanks text.toList = (text.toList.dropWhile isBlank).rdropWhile isBlank :=
      rfl
    rw [← String.toList_inj]
    simp only [String.toList_append, String.toList_ofList, toList_trim]
    rw [trimmed, List.append_assoc, ends, begins]

namespace Notation

/-! ## Segments behind others -/

section

variable {separator : Char}

/-- A separator stands in front of each part but the first. -/
theorem intercalate_cons (part : List Char) (others : List (List Char)) :
    [separator].intercalate (part :: others) = part ++ others.flatMap (separator :: ·) := by
  induction others generalizing part with
  | nil => simp
  | cons next others ih => simp [ih]

theorem intercalate_append {front : List (List Char)} (nonempty : front ≠ [])
    (behind : List (List Char)) :
    [separator].intercalate (front ++ behind) =
      [separator].intercalate front ++ behind.flatMap (separator :: ·) := by
  cases front with
  | nil => exact (nonempty rfl).elim
  | cons part others =>
      rw [List.cons_append, intercalate_cons, intercalate_cons, List.flatMap_append,
        List.append_assoc]

/-- Whether a text is empty or begins with a separator that no token follows. -/
def IsStop (separator : Char) (rest : List Char) : Prop :=
  rest = [] ∨ rest = [separator] ∨ ∃ more, rest = separator :: separator :: more

/-- The texts that stop the tokens are those that stand behind them from an empty part on. -/
theorem isStop_iff {rest : List Char} :
    IsStop separator rest ↔
      ∃ behind : List (List Char), (∀ part ∈ behind, separator ∉ part) ∧
        behind.takeWhile (!·.isEmpty) = [] ∧ rest = behind.flatMap (separator :: ·) := by
  constructor
  · rintro (rfl | rfl | ⟨more, rfl⟩)
    · exact ⟨[], by simp, rfl, rfl⟩
    · exact ⟨[[]], by simp, rfl, rfl⟩
    · rcases segments_eq_iff.1 (rfl : segments separator more = _) with ⟨nonempty, free, joined⟩
      refine ⟨[] :: segments separator more, ?_, rfl, ?_⟩
      · simpa using free
      · cases parts : segments separator more with
        | nil => exact (nonempty parts).elim
        | cons part others =>
            rw [parts, intercalate_cons] at joined
            simp [joined]
  · rintro ⟨behind, -, empty, rfl⟩
    cases behind with
    | nil => exact .inl rfl
    | cons part others =>
        cases part with
        | cons => cases empty
        | nil =>
            cases others with
            | nil => exact .inr (.inl rfl)
            | cons next others => exact .inr (.inr ⟨next ++ others.flatMap (separator :: ·), rfl⟩)

/-- The segments of a text, as far as none is empty, and what follows are its one lossless cut. -/
theorem segments_cut_iff {text rest : List Char} {tokens : List (List Char)} :
    tokens ≠ [] ∧ (segments separator text).takeWhile (!·.isEmpty) = tokens ∧
        ((segments separator text).dropWhile (!·.isEmpty)).flatMap (separator :: ·) = rest ↔
      tokens ≠ [] ∧ (∀ token ∈ tokens, token ≠ [] ∧ separator ∉ token) ∧
        text = [separator].intercalate tokens ++ rest ∧ IsStop separator rest := by
  constructor
  · rintro ⟨nonempty, rfl, rfl⟩
    rcases segments_eq_iff.1 (rfl : segments separator text = _) with ⟨-, free, joined⟩
    generalize segments separator text = parts at *
    have split := List.takeWhile_append_dropWhile (p := (!·.isEmpty)) (l := parts)
    refine ⟨nonempty, ?_, ?_, ?_⟩
    · intro token member
      have solid := List.mem_takeWhile_imp member
      have among := (List.takeWhile_sublist _).subset member
      exact ⟨by simpa using solid, free token among⟩
    · rw [← intercalate_append nonempty, split, joined]
    · rw [isStop_iff]
      refine ⟨_, ?_, ?_, rfl⟩
      · intro part member
        exact free part ((List.dropWhile_sublist _).subset member)
      · rw [List.takeWhile_eq_nil_iff]
        exact List.dropWhile_get_zero_not _ parts
  · rintro ⟨nonempty, solid, rfl, stop⟩
    rcases isStop_iff.1 stop with ⟨behind, free, empty, rfl⟩
    have parts : segments separator ([separator].intercalate tokens ++
        behind.flatMap (separator :: ·)) = tokens ++ behind := by
      rw [← intercalate_append nonempty, segments_eq_iff]
      refine ⟨by simp [nonempty], ?_, rfl⟩
      intro part member
      rcases List.mem_append.1 member with here | later
      · exact (solid part here).2
      · exact free part later
    have all : ∀ token ∈ tokens, (!token.isEmpty) = true := by
      simpa using fun token member => (solid token member).1
    have left : behind.dropWhile (!·.isEmpty) = behind := by
      rw [← List.nil_append (behind.dropWhile _), ← empty, List.takeWhile_append_dropWhile]
    rw [parts, List.takeWhile_append_of_pos all, List.dropWhile_append_of_pos all, empty, left,
      List.append_nil]
    exact ⟨nonempty, rfl, rfl⟩

/-- Only nothing and a separator have no token in front. -/
theorem takeWhile_segments_eq_nil_iff {text : List Char} :
    (segments separator text).takeWhile (!·.isEmpty) = [] ↔
      text = [] ∨ ∃ more, text = separator :: more := by
  cases text with
  | nil => simp [segments]
  | cons c rest =>
      rw [segments]
      split
      next same => simp [same]
      next differs =>
        split <;> simp [differs]

end

/-! ## The cut of a text -/

/--
Whether a text is cut into tokens and a rest: nothing of it is lost, and the rest is nothing or a
plus sign that no token follows.
-/
structure IsCut (text : String) (tokens : List String) (rest : String) : Prop where
  nonempty : tokens ≠ []
  solid : ∀ token ∈ tokens, token ≠ "" ∧ '+' ∉ token.toList
  joined : text = "+".intercalate tokens ++ rest
  ends : rest = "" ∨ rest = "+" ∨ ∃ more, rest = "++" ++ more

theorem exists_append_iff {text front : String} :
    (∃ more, text = front ++ more) ↔ ∃ more, text.toList = front.toList ++ more := by
  constructor
  · rintro ⟨more, rfl⟩
    exact ⟨more.toList, String.toList_append⟩
  · rintro ⟨more, split⟩
    refine ⟨.ofList more, ?_⟩
    rw [← String.toList_inj, String.toList_append, String.toList_ofList, split]

theorem isCut_iff {text : String} {tokens : List String} {rest : String} :
    IsCut text tokens rest ↔
      tokens.map String.toList ≠ [] ∧
        (∀ token ∈ tokens.map String.toList, token ≠ [] ∧ '+' ∉ token) ∧
        text.toList = ['+'].intercalate (tokens.map String.toList) ++ rest.toList ∧
        IsStop '+' rest.toList := by
  have joins : text = "+".intercalate tokens ++ rest ↔
      text.toList = ['+'].intercalate (tokens.map String.toList) ++ rest.toList := by
    rw [← String.toList_inj, String.toList_append, String.toList_intercalate]
    rfl
  have stops : (rest = "" ∨ rest = "+" ∨ ∃ more, rest = "++" ++ more) ↔
      IsStop '+' rest.toList := by
    rw [exists_append_iff, ← String.toList_inj, ← String.toList_inj]
    rfl
  rw [← joins, ← stops]
  constructor
  · rintro ⟨nonempty, solid, joined, ends⟩
    exact ⟨by simpa using nonempty, by simpa using solid, joined, ends⟩
  · rintro ⟨nonempty, solid, joined, ends⟩
    exact ⟨by simpa using nonempty, by simpa using solid, joined, ends⟩

/-- A text has one cut, the one that is made. -/
theorem chordTokens_eq_ok_iff {text : String} {tokens : List String} {rest : String} :
    chordTokens text = .ok (tokens, rest) ↔ IsCut text tokens rest := by
  rw [isCut_iff, ← segments_cut_iff, chordTokens]
  generalize (segments '+' text.toList).takeWhile (!·.isEmpty) = begun
  generalize ((segments '+' text.toList).dropWhile (!·.isEmpty)).flatMap ('+' :: ·) = left
  constructor
  · intro cut
    split at cut
    · cases cut
    next nonempty =>
      cases cut
      simpa [Function.comp_def] using nonempty
  · rintro ⟨nonempty, rfl, rfl⟩
    rw [if_neg (by simpa using nonempty)]
    simp [Function.comp_def]

theorem chordTokens_eq_error_iff {text : String} {mismatch : Mismatch} :
    chordTokens text = .error mismatch ↔
      (text = "" ∨ ∃ more, text = "+" ++ more) ∧ mismatch = ⟨text, .takeWhile1⟩ := by
  have begins : (text = "" ∨ ∃ more, text = "+" ++ more) ↔
      ((segments '+' text.toList).takeWhile (!·.isEmpty)).isEmpty = true := by
    rw [List.isEmpty_iff, takeWhile_segments_eq_nil_iff, exists_append_iff, ← String.toList_inj]
    rfl
  rw [begins, chordTokens]
  split
  next nothing => simp [nothing, eq_comm]
  next something => simp [something]

theorem isCut_whole_iff {text : String} {tokens : List String} :
    IsCut text tokens "" ↔
      tokens ≠ [] ∧ (∀ token ∈ tokens, token ≠ "" ∧ '+' ∉ token.toList) ∧
        text = "+".intercalate tokens := by
  constructor
  · rintro ⟨nonempty, solid, joined, -⟩
    exact ⟨nonempty, solid, by rw [joined, String.append_empty]⟩
  · rintro ⟨nonempty, solid, joined⟩
    exact ⟨nonempty, solid, by rw [joined, String.append_empty], .inl rfl⟩

/-- A text is not cut, or something is left over, or there is a last token and nothing else. -/
theorem chordTokens_cases (text : String) :
    (∃ mismatch, chordTokens text = .error mismatch) ∨
      (∃ tokens rest, chordTokens text = .ok (tokens, rest) ∧ rest ≠ "") ∨
      ∃ before last, chordTokens text = .ok (before ++ [last], "") := by
  cases cut : chordTokens text with
  | error mismatch => exact .inl ⟨mismatch, rfl⟩
  | ok found =>
      rcases found with ⟨tokens, rest⟩
      by_cases something : rest = ""
      · subst something
        have nonempty := (chordTokens_eq_ok_iff.1 cut).nonempty
        refine .inr (.inr ⟨tokens.dropLast, tokens.getLast nonempty, ?_⟩)
        rw [List.dropLast_append_getLast]
      · exact .inr (.inl ⟨tokens, rest, rfl, something⟩)

/-! ## What a chord leaves over -/

section

variable {text : String}

theorem parseChord_of_mismatch {mismatch : Mismatch}
    (failed : chordTokens (Text.trim text) = .error mismatch) :
    parseChord text = .error (.invalidSyntax text (.noChord mismatch)) := by
  rw [parseChord, failed]
  rfl

/-- What is left over is not ignored. -/
theorem parseChord_of_rest {tokens : List String} {rest : String}
    (cut : chordTokens (Text.trim text) = .ok (tokens, rest)) (something : rest ≠ "") :
    parseChord text = .error (.invalidSyntax text (.trailing rest)) := by
  simp [parseChord, cut, something, Except.mapError, bind, Except.bind, throw, throwThe,
    MonadExceptOf.throw]

/-- All tokens are read where nothing is left over. -/
theorem parseChord_of_tokens {before : List String} {last : String}
    (cut : chordTokens (Text.trim text) = .ok (before ++ [last], "")) :
    parseChord text = do
      let modifiers ← before.mapM chordModifiers
      let key ← (Key.parse last).mapError .name
      return Chord.of key modifiers.flatten := by
  simp [parseChord, cut, Except.mapError, bind, Except.bind, pure, Except.pure]

/-- A token in front of the key is wrong by itself, never by what stands behind it. -/
theorem chordModifiers_ne_trailing {token input rest : String} :
    chordModifiers token ≠ .error (.invalidSyntax input (.trailing rest)) := by
  intro failed
  rw [chordModifiers] at failed
  split at failed
  · cases failed
  · split at failed <;> cases failed

/-- A chord is refused for what follows it exactly if the cut leaves something over. -/
theorem parseChord_eq_trailing_iff {rest : String} :
    parseChord text = .error (.invalidSyntax text (.trailing rest)) ↔
      rest ≠ "" ∧ ∃ tokens, IsCut (Text.trim text) tokens rest := by
  simp only [← chordTokens_eq_ok_iff]
  constructor
  · intro failed
    rcases chordTokens_cases (Text.trim text) with
      ⟨mismatch, uncut⟩ | ⟨tokens, left, cut, something⟩ | ⟨before, last, cut⟩
    · rw [parseChord_of_mismatch uncut] at failed
      cases failed
    · rw [parseChord_of_rest cut something] at failed
      cases failed
      exact ⟨something, tokens, cut⟩
    · simp only [parseChord_of_tokens cut, bind_eq_error_iff, mapError_eq_error_iff,
        pure_ne_error] at failed
      rcases failed with wrong | ⟨_, -, ⟨_, -, differ⟩ | ⟨_, -, ⟨⟩⟩⟩
      · rcases exists_of_mapM_eq_error wrong with ⟨token, -, wrong⟩
        exact (chordModifiers_ne_trailing wrong).elim
      · cases differ
  · rintro ⟨something, tokens, cut⟩
    exact parseChord_of_rest cut something

end

end Notation

end KeyLayers
