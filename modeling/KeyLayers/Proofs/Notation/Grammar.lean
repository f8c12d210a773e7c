import KeyLayers.Notation.Leaf
import KeyLayers.Proofs.Notation.Tokens

/-!
# The grammar of leaves

`LeafText` says which texts are leaves and of which nodes, one constructor for
each kind: a word, spaces and tabs, a colon and an argument, and for chords and
input sources the form that the argument has in turn.  Nothing in it speaks of
steps, of their order or of a text that is left over.

The reader accepts exactly these texts (`parseLeaf_eq_ok_iff`).  Its steps never
try again, so the tables of words have to be such that no word begins with an
earlier one (`Separable`); and it drops spaces and tabs behind a sign first and
all other blanks afterwards, which together is trimming.
-/

namespace KeyLayers.Notation

/-! ## Words with an argument -/

/--
Whether a text is a word, a run of spaces and tabs, a sign and an argument: what
stands behind the sign, without the blanks around it and not nothing.
-/
def IsTagged (word : String) (sign : Char) (text argument : String) : Prop :=
  argument ≠ "" ∧ ∃ blanks rest : List Char, (∀ c ∈ blanks, IsInline c) ∧
    text.toList = word.toList ++ blanks ++ sign :: rest ∧
      Text.trim (String.ofList rest) = argument

/-- An argument has no blanks around it. -/
theorem IsTagged.trim_eq {word text argument : String} {sign : Char}
    (tagged : IsTagged word sign text argument) : Text.trim argument = argument := by
  rcases tagged with ⟨-, blanks, rest, -, -, rfl⟩
  rw [Text.trim_trim]

section

variable {α : Type} {words : List (String × α)} {sign : Char} {meaning : α}

theorem parseTagged_eq_ok_iff {text left : String} :
    parseTagged words sign text = .ok (meaning, left) ↔
      ∃ behind rest, firstWord? words text.toList = some (meaning, behind) ∧
        skipInline behind = sign :: rest ∧ String.ofList (skipInline rest) = left := by
  cases found : firstWord? words text.toList with
  | none => simp [parseTagged, found]
  | some entry =>
      rcases entry with ⟨other, behind⟩
      rw [parseTagged, found]
      dsimp only
      split
      next rest skipped =>
        rw [after?_eq_some_iff] at skipped
        simp [skipped]
      next differs =>
        have differs : ∀ rest, skipInline behind ≠ sign :: rest := by
          intro rest skipped
          rw [after?_eq_some_iff.2 skipped] at differs
          cases differs
        simp [differs]

theorem taggedArgument_eq_ok_iff (separable : Separable words sign)
    {reason : Mismatch → SyntaxReason} {text argument : String} :
    taggedArgument words sign reason text = .ok (meaning, argument) ↔
      ∃ word, (word, meaning) ∈ words ∧ IsTagged word sign (Text.trim text) argument := by
  constructor
  · intro read
    simp only [taggedArgument, bind_eq_ok_iff, mapError_eq_ok_iff, Prod.exists,
      parseTagged_eq_ok_iff] at read
    rcases read with ⟨other, left, ⟨behind, rest, found, skipped, rfl⟩, read⟩
    split at read
    · cases read
    next something =>
      cases read
      rcases (firstWord?_sign_iff separable).1 ⟨behind, found, skipped⟩ with
        ⟨word, blanks, member, inlines, shape⟩
      refine ⟨word, member, ?_, blanks, rest, inlines, shape, (trim_skipInline rest).symm⟩
      simpa using something
  · rintro ⟨word, member, something, blanks, rest, inlines, shape, trimmed⟩
    rcases (firstWord?_sign_iff separable).2 ⟨word, blanks, member, inlines, shape⟩ with
      ⟨behind, found, skipped⟩
    rw [← trim_skipInline] at trimmed
    rw [taggedArgument, parseTagged_eq_ok_iff.2 ⟨behind, rest, found, skipped, rfl⟩]
    simp [Except.mapError, bind, Except.bind, pure, Except.pure, trimmed, something]

end

theorem separable_kindWords : Separable kindWords ':' where
  apart := by decide +kernel
  solid := by simp [kindWords, IsInline]
  sign := by simp [IsInline]

/-- The longer word for the language comes before the one that it begins with. -/
theorem separable_fieldWords : Separable fieldWords '=' where
  apart := by decide +kernel
  solid := by simp [fieldWords, IsInline]
  sign := by simp [IsInline]

/-! ## Chords -/

/-- The modifiers that a token in front of the key stands for. -/
inductive TokenModifiers (token : String) : List Modifier → Prop where
  | hyper (spelled : Text.fold token = "hyper") : TokenModifiers token Modifier.hyper
  | meh (spelled : Text.fold token = "meh") : TokenModifiers token Modifier.meh
  | single {modifier : Modifier} (spelled : modifier.SpelledBy token)
      (sent : modifier ≠ .any) : TokenModifiers token [modifier]

/-- The chords that tokens between plus signs stand for. -/
inductive ChordText (text : String) : Chord → Prop where
  | tokens {before : List String} {last : String} {groups : List (List Modifier)} {key : Key}
      (joined : text = "+".intercalate (before ++ [last]))
      (solid : ∀ token ∈ before ++ [last], token ≠ "" ∧ '+' ∉ token.toList)
      (modifiers : List.Forall₂ TokenModifiers before groups)
      (spelled : key.SpelledBy last) :
      ChordText text (Chord.of key groups.flatten)

theorem not_spelledBy_of_group {token : String} {modifier : Modifier}
    (group : Text.fold token = "hyper" ∨ Text.fold token = "meh") :
    ¬ modifier.SpelledBy token := by
  have names : ∀ modifier ∈ Modifier.all,
      modifier.name ≠ "hyper" ∧ modifier.name ≠ "meh" := by decide +kernel
  have aliases : ∀ entry ∈ Modifier.aliases,
      entry.1 ≠ "hyper" ∧ entry.1 ≠ "meh" := by decide +kernel
  rintro (named | paired)
  · have := names modifier (Modifier.mem_all modifier)
    rw [← named] at this
    exact group.elim this.1 this.2
  · exact group.elim (aliases _ paired).1 (aliases _ paired).2

theorem chordModifiers_eq_ok_iff {token : String} {modifiers : List Modifier} :
    chordModifiers token = .ok modifiers ↔ TokenModifiers token modifiers := by
  constructor
  · intro read
    rw [chordModifiers] at read
    split at read
    next group found =>
      cases read
      rcases Modifier.group?_eq_some_iff.1 found with ⟨spelled, rfl⟩ | ⟨spelled, rfl⟩
      · exact .hyper spelled
      · exact .meh spelled
    next notGroup =>
      split at read
      next error failed => cases read
      next matched => cases read
      next modifier notAny parsed =>
        cases read
        exact .single (Modifier.parse_eq_ok_iff.1 parsed) notAny
  · intro read
    cases read with
    | hyper spelled =>
        rw [chordModifiers, Modifier.group?_eq_some_iff.2 (.inl ⟨spelled, rfl⟩)]
    | meh spelled =>
        rw [chordModifiers, Modifier.group?_eq_some_iff.2 (.inr ⟨spelled, rfl⟩)]
    | @single modifier spelled sent =>
        have notGroup : Modifier.group? token = none := by
          rw [Option.eq_none_iff_forall_ne_some]
          intro group found
          refine not_spelledBy_of_group ?_ spelled
          exact (Modifier.group?_eq_some_iff.1 found).imp And.left And.left
        rw [chordModifiers, notGroup, Modifier.parse_eq_ok_iff.2 spelled]
        cases modifier <;> first | rfl | exact (sent rfl).elim

theorem parseChord_eq_ok_iff {text : String} {chord : Chord} :
    parseChord text = .ok chord ↔ ChordText (Text.trim text) chord := by
  constructor
  · intro read
    rcases chordTokens_cases (Text.trim text) with
      ⟨mismatch, uncut⟩ | ⟨tokens, rest, cut, something⟩ | ⟨before, last, cut⟩
    · rw [parseChord_of_mismatch uncut] at read
      cases read
    · rw [parseChord_of_rest cut something] at read
      cases read
    · simp only [parseChord_of_tokens cut, bind_eq_ok_iff, mapError_eq_ok_iff,
        pure_eq_ok_iff] at read
      rcases read with ⟨groups, modifiers, key, spelled, rfl⟩
      rcases isCut_whole_iff.1 (chordTokens_eq_ok_iff.1 cut) with ⟨-, solid, joined⟩
      refine .tokens joined solid ?_ (Key.parse_eq_ok_iff.1 spelled)
      exact (mapM_eq_ok_iff.1 modifiers).imp fun token group => chordModifiers_eq_ok_iff.1
  · rintro ⟨joined, solid, modifiers, spelled⟩
    have cut := chordTokens_eq_ok_iff.2 (isCut_whole_iff.2 ⟨by simp, solid, joined⟩)
    simp only [parseChord_of_tokens cut, bind_eq_ok_iff, mapError_eq_ok_iff, pure_eq_ok_iff]
    refine ⟨_, ?_, _, Key.parse_eq_ok_iff.2 spelled, rfl⟩
    exact mapM_eq_ok_iff.2 (modifiers.imp fun token group => chordModifiers_eq_ok_iff.2)

/--
A text has no tokens if it is empty or begins with a plus sign.  Every other text is cut into
tokens and a rest without losing anything, and as far as tokens go (`IsCut`).  So a chord is read
from all of its text but the blanks around it, and what the tokens leave over is refused.
-/
theorem chordTokens_lossless (text : String) :
    (∀ mismatch, chordTokens text = .error mismatch ↔
        (text = "" ∨ ∃ more, text = "+" ++ more) ∧ mismatch = ⟨text, .takeWhile1⟩) ∧
      (∀ tokens rest, chordTokens text = .ok (tokens, rest) ↔ IsCut text tokens rest) ∧
      (∃ front back : String, (∀ c ∈ (front ++ back).toList, Text.isBlank c = true) ∧
        text = front ++ Text.trim text ++ back) ∧
      (∀ chord, parseChord text = .ok chord ↔ ChordText (Text.trim text) chord) ∧
      ∀ rest, parseChord text = .error (.invalidSyntax text (.trailing rest)) ↔
        rest ≠ "" ∧ ∃ tokens, IsCut (Text.trim text) tokens rest := by
  refine ⟨fun _ => chordTokens_eq_error_iff, fun _ _ => chordTokens_eq_ok_iff,
    Text.exists_trim text, fun _ => parseChord_eq_ok_iff, fun _ => parseChord_eq_trailing_iff⟩

/-- The plus sign that no token follows is left over, and so is all behind it. -/
example : chordTokens "cmd+a++b" = .ok (["cmd", "a"], "++b") := by rfl

/-! ## Input sources -/

/-- The selectors that a field and its pattern stand for. -/
inductive SelectorText (text : String) : InputSource → Prop where
  | sourceId {pattern : String} (read : IsTagged "id" '=' text pattern) :
      SelectorText text { sourceId := some pattern }
  | language {word pattern : String} (either : word = "lang" ∨ word = "language")
      (read : IsTagged word '=' text pattern) :
      SelectorText text { language := some pattern }
  | mode {pattern : String} (read : IsTagged "mode" '=' text pattern) :
      SelectorText text { mode := some pattern }

theorem parseInputSource_eq_ok_iff {text : String} {source : InputSource} :
    parseInputSource text = .ok source ↔ SelectorText (Text.trim text) source := by
  have steps : parseInputSource text = .ok source ↔
      ∃ field pattern, (∃ word, (word, field) ∈ fieldWords ∧
        IsTagged word '=' (Text.trim text) pattern) ∧ field.selector pattern = source := by
    simp only [parseInputSource, bind_eq_ok_iff, Prod.exists, pure_eq_ok_iff,
      taggedArgument_eq_ok_iff separable_fieldWords]
  rw [steps]
  constructor
  · rintro ⟨field, pattern, ⟨word, member, tagged⟩, rfl⟩
    simp only [fieldWords, List.mem_cons, Prod.mk.injEq, List.not_mem_nil, or_false] at member
    rcases member with ⟨rfl, rfl⟩ | ⟨rfl, rfl⟩ | ⟨rfl, rfl⟩ | ⟨rfl, rfl⟩
    · exact .sourceId tagged
    · exact .language (.inr rfl) tagged
    · exact .language (.inl rfl) tagged
    · exact .mode tagged
  · intro selector
    cases selector with
    | sourceId tagged => exact ⟨.sourceId, _, ⟨_, by decide +kernel, tagged⟩, rfl⟩
    | language either tagged =>
        refine ⟨.language, _, ⟨_, ?_, tagged⟩, rfl⟩
        rcases either with rfl | rfl
        · decide +kernel
        · decide +kernel
    | mode tagged => exact ⟨.mode, _, ⟨_, by decide +kernel, tagged⟩, rfl⟩

/-! ## Leaves -/

/-- The nodes that a kind and its argument stand for. -/
inductive LeafText (text : String) : LayerNode → Prop where
  | app {argument : String} (read : IsTagged "app" ':' text argument) :
      LeafText text (.action (.launchApp argument))
  | openTarget {argument : String} (read : IsTagged "open" ':' text argument) :
      LeafText text (.action (.openTarget argument))
  | shell {argument : String} (read : IsTagged "shell" ':' text argument) :
      LeafText text (.action (.runShell argument))
  | key {argument : String} {chord : Chord} (read : IsTagged "key" ':' text argument)
      (reads : ChordText argument chord) : LeafText text (.action (.sendChord chord))
  | input {argument : String} {source : InputSource}
      (read : IsTagged "input" ':' text argument) (reads : SelectorText argument source) :
      LeafText text (.action (.selectInput source))
  | layer {argument : String} (read : IsTagged "layer" ':' text argument) :
      LeafText text (.reference argument)

theorem leafText_of_leafNode {text argument word : String} {kind : LeafKind} {node : LayerNode}
    (member : (word, kind) ∈ kindWords) (tagged : IsTagged word ':' text argument)
    (read : leafNode kind argument = .ok node) : LeafText text node := by
  simp only [kindWords, List.mem_cons, Prod.mk.injEq, List.not_mem_nil, or_false] at member
  rcases member with ⟨rfl, rfl⟩ | ⟨rfl, rfl⟩ | ⟨rfl, rfl⟩ | ⟨rfl, rfl⟩ | ⟨rfl, rfl⟩ |
    ⟨rfl, rfl⟩
  · cases read
    exact .app tagged
  · cases read
    exact .openTarget tagged
  · cases read
    exact .shell tagged
  · rw [leafNode, map_eq_ok_iff] at read
    rcases read with ⟨chord, reads, rfl⟩
    rw [parseChord_eq_ok_iff, tagged.trim_eq] at reads
    exact .key tagged reads
  · rw [leafNode, map_eq_ok_iff] at read
    rcases read with ⟨source, reads, rfl⟩
    rw [parseInputSource_eq_ok_iff, tagged.trim_eq] at reads
    exact .input tagged reads
  · cases read
    exact .layer tagged

/-- A text is read as a node exactly if it is a leaf of that node. -/
theorem parseLeaf_eq_ok_iff {text : String} {node : LayerNode} :
    parseLeaf text = .ok node ↔ LeafText (Text.trim text) node := by
  have steps : parseLeaf text = .ok node ↔
      ∃ kind argument, (∃ word, (word, kind) ∈ kindWords ∧
        IsTagged word ':' (Text.trim text) argument) ∧ leafNode kind argument = .ok node := by
    simp only [parseLeaf, bind_eq_ok_iff, Prod.exists,
      taggedArgument_eq_ok_iff separable_kindWords]
  rw [steps]
  constructor
  · rintro ⟨kind, argument, ⟨word, member, tagged⟩, read⟩
    exact leafText_of_leafNode member tagged read
  · intro leaf
    cases leaf with
    | app tagged => exact ⟨.app, _, ⟨_, by decide +kernel, tagged⟩, rfl⟩
    | openTarget tagged => exact ⟨.openTarget, _, ⟨_, by decide +kernel, tagged⟩, rfl⟩
    | shell tagged => exact ⟨.shell, _, ⟨_, by decide +kernel, tagged⟩, rfl⟩
    | key tagged reads =>
        rw [← tagged.trim_eq, ← parseChord_eq_ok_iff] at reads
        refine ⟨.key, _, ⟨_, by decide +kernel, tagged⟩, ?_⟩
        rw [leafNode, map_eq_ok_iff]
        exact ⟨_, reads, rfl⟩
    | input tagged reads =>
        rw [← tagged.trim_eq, ← parseInputSource_eq_ok_iff] at reads
        refine ⟨.input, _, ⟨_, by decide +kernel, tagged⟩, ?_⟩
        rw [leafNode, map_eq_ok_iff]
        exact ⟨_, reads, rfl⟩
    | layer tagged => exact ⟨.layer, _, ⟨_, by decide +kernel, tagged⟩, rfl⟩

/-- Only the first colon is a sign; those behind it belong to the argument. -/
example : parseLeaf " open\t: a:b " = .ok (.action (.openTarget "a:b")) := by rfl

end KeyLayers.Notation
