import KeyLayers.Proofs.Shell.Words
import KeyLayers.Proofs.Validation

/-!
# What a shell runs a command with

A word of a command stands for its own text once the quotes are gone, unless some of its
letters have a meaning for the shell.  Parameters, commands and patterns may be anywhere in
a word, a home directory only at its beginning, and where a word may begin there may be a
comment instead.  `Shell.arguments?` gives the texts that the words of a command stand for.

The characters that are taken to need no quotes have no meaning anywhere but at the
beginning of a word, where two of them have one: a tilde stands for a home directory, and a
number sign begins a comment.  `Action.openTarget_words` says what becomes of a target that
begins with one of them, and that every other target is opened as it is.
-/

namespace KeyLayers

namespace Shell

/-! ## What words stand for -/

/-- Whether a letter begins a parameter, a command or a pattern, wherever it is in a word. -/
def Letter.isActive (letter : Letter) : Bool :=
  match letter.quoting with
  | .bare => ['$', '`', '*', '?', '['].contains letter.char
  | .double => ['$', '`'].contains letter.char
  | .escaped | .single => false

/-- Whether a letter belongs to the name of a user that may follow a tilde. -/
def Letter.isLogin (letter : Letter) : Bool :=
  letter != ⟨'/', .bare⟩

/--
The text of a word, with what the shell puts in place of a tilde at its beginning and of the
name of a user that may follow: `home name`, if no letter of the name is quoted.
-/
def Word.expandTilde (home : String → String) (word : Word) : String :=
  let login : Word := word.tail.takeWhile Letter.isLogin
  let beyond : Word := word.tail.dropWhile Letter.isLogin
  if word.head? = some ⟨'~', .bare⟩ ∧ ∀ letter ∈ login, letter.quoting = .bare then
    home login.text ++ beyond.text
  else word.text

/-- What a word stands for; there is no answer here for words with active letters. -/
def Word.value? (home : String → String) (word : Word) : Option String :=
  if word.any Letter.isActive then none else some (word.expandTilde home)

/-- The words that a shell does not take for the name of a command. -/
def reserved : List String :=
  ["!", "\x7b", "\x7d", "case", "do", "done", "elif", "else", "esac", "fi", "for", "if", "in",
    "then", "until", "while"]

/-- Whether the first word of a command is its name: it is not reserved, and assigns nothing. -/
def Word.isCommandName (word : Word) : Bool :=
  !(reserved.map bare).contains word && !word.contains ⟨'=', .bare⟩

/-- The word that a token is, unless it is part of an operator. -/
def Token.word? : Token → Option Word
  | .word letters => some letters
  | .operator _ => none

/-- The texts that a shell runs a command with, if the command is nothing but words. -/
def arguments? (home : String → String) (command : String) : Option (List String) := do
  let words ← (← tokens command).mapM Token.word?
  if words.head?.all Word.isCommandName then words.mapM (Word.value? home) else none

example : arguments? (fun login => "/home/" ++ login) "cd ~ann/x '~'/y # z" =
    some ["cd", "/home/ann/x", "~/y"] := by decide +kernel

example : arguments? id "rm *; ls" = none := by decide +kernel

/-! ## Characters that are taken to need no quotes -/

theorem ne_of_isPlain {c : Char} (plain : isPlain c = true) (others : List Char)
    (special : others.all (!isPlain ·) = true) : ∀ other ∈ others, c ≠ other := by
  rintro other member rfl
  have notPlain := List.all_eq_true.1 special c member
  rw [plain] at notPlain
  cases notPlain

theorem isOrdinary_of_isPlain {c : Char} (plain : isPlain c = true) (notSharp : c ≠ '#') :
    isOrdinary c = true := by
  have apart := ne_of_isPlain plain
    ['\'', '"', '\\', ' ', '\t', '\n', '&', '|', ';', '<', '>', '(', ')'] (by decide)
  simp only [List.forall_mem_cons] at apart
  simp [isOrdinary, isSeparator, isOperator, notSharp, apart]

theorem isActive_of_isPlain {c : Char} (plain : isPlain c = true) :
    Letter.isActive ⟨c, .bare⟩ = false := by
  have apart := ne_of_isPlain plain ['$', '`', '*', '?', '['] (by decide)
  simp only [List.forall_mem_cons] at apart
  simp [Letter.isActive, apart]

/-- Within a word, characters that need no quotes continue it. -/
theorem scan_isPlain {chars : List Char} (plain : ∀ c ∈ chars, isPlain c = true) (word : Word) :
    scan .bare (some word) chars = some [.word (word ++ chars.map (⟨·, .bare⟩))] := by
  induction chars generalizing word with
  | nil =>
      rw [List.map_nil, List.append_nil]
      rfl
  | cons c chars ih =>
      have continues : scan .bare (some word) (c :: chars) =
          scan .bare (some (word ++ [⟨c, .bare⟩])) chars := by
        by_cases sharp : c = '#'
        · subst sharp
          rfl
        · exact scan_ordinary (isOrdinary_of_isPlain (plain c (.head _)) sharp) _ _
      rw [continues, ih fun other member => plain other (.tail _ member), List.map_cons,
        List.append_assoc, List.singleton_append]

/-- A comment goes on to the end of its line. -/
theorem scan_comment {chars : List Char} (oneLine : ∀ c ∈ chars, c ≠ '\n') :
    scan .comment none chars = some [] := by
  induction chars with
  | nil => rfl
  | cons c chars ih =>
      rw [scan, if_neg (oneLine c (.head _))]
      exact ih fun other member => oneLine other (.tail _ member)

/-! ## Targets -/

/-- A text with what the shell puts in place of a tilde at its beginning. -/
def expandTilde (home : String → String) (text : String) : String :=
  let rest := text.toList.tail
  if text.toList.head? = some '~' then
    home (String.ofList (rest.takeWhile (· != '/'))) ++
      String.ofList (rest.dropWhile (· != '/'))
  else text

/-- What becomes of a target that is the last word of a command. -/
def opened (home : String → String) (target : String) : List String :=
  if target.toList.all isPlain then
    if target.toList.head? = some '#' then [] else [expandTilde home target]
  else [target]

theorem text_bareLetters (chars : List Char) :
    Word.text (chars.map (⟨·, .bare⟩)) = String.ofList chars := by
  rw [Word.text, List.map_map]
  exact congrArg String.ofList (List.map_id _)

theorem text_bare (text : String) : (bare text).text = text :=
  (text_bareLetters text.toList).trans String.ofList_toList

/-- In a word without quotes any tilde at the beginning is replaced. -/
theorem expandTilde_bare (home : String → String) (text : String) :
    (bare text).expandTilde home = expandTilde home text := by
  have login : Letter.isLogin ∘ (⟨·, .bare⟩) = (· != '/') := by
    funext c
    simp [Letter.isLogin, bne, BEq.beq]
  have start : (bare text).head? = some ⟨'~', .bare⟩ ↔ text.toList.head? = some '~' := by
    simp [bare]
  have unquoted : ∀ letter ∈ (bare text).tail.takeWhile Letter.isLogin,
      letter.quoting = .bare := by
    intro letter member
    have among := List.mem_of_mem_tail ((List.takeWhile_sublist _).mem member)
    rcases List.mem_map.1 among with ⟨c, -, rfl⟩
    rfl
  have name : Word.text ((bare text).tail.takeWhile Letter.isLogin) =
      String.ofList (text.toList.tail.takeWhile (· != '/')) := by
    rw [bare, ← List.map_tail, List.takeWhile_map, login, text_bareLetters]
  have beyond : Word.text ((bare text).tail.dropWhile Letter.isLogin) =
      String.ofList (text.toList.tail.dropWhile (· != '/')) := by
    rw [bare, ← List.map_tail, List.dropWhile_map, login, text_bareLetters]
  rw [Word.expandTilde, expandTilde, name, beyond, text_bare]
  by_cases tilde : text.toList.head? = some '~'
  · rw [if_pos ⟨start.2 tilde, unquoted⟩, if_pos tilde]
  · rw [if_neg fun both => tilde (start.1 both.1), if_neg tilde]

/-- A word between single quotes stands for itself, whatever it contains. -/
theorem value?_quoted (target : String) (home : String → String) :
    Word.value? home (target.toList.map quotedLetter) = some target := by
  have inactive : (target.toList.map quotedLetter).any Letter.isActive = false := by
    rw [List.any_map, List.any_eq_false]
    intro c _
    rw [Function.comp_apply, quotedLetter]
    split <;> simp [Letter.isActive]
  have start : (target.toList.map quotedLetter).head? ≠ some ⟨'~', .bare⟩ := by
    cases target.toList with
    | nil => simp
    | cons c rest =>
        rw [List.map_cons, List.head?_cons, quotedLetter]
        split <;> simp
  rw [Word.value?, inactive, if_neg Bool.false_ne_true, Word.expandTilde,
    if_neg fun tilde => start tilde.1, Word.text, List.map_map]
  exact congrArg some ((congrArg String.ofList (List.map_id _)).trans String.ofList_toList)

theorem value?_bare {target : String} (plain : ∀ c ∈ target.toList, isPlain c = true)
    (home : String → String) :
    (bare target).value? home = some (expandTilde home target) := by
  have inactive : (bare target).any Letter.isActive = false := by
    rw [bare, List.any_map, List.any_eq_false]
    intro c member
    rw [Function.comp_apply, isActive_of_isPlain (plain c member)]
    exact Bool.false_ne_true
  rw [Word.value?, inactive, if_neg Bool.false_ne_true, expandTilde_bare]

/-- The words of a command that opens something are its name and those of the argument. -/
theorem tokens_open (argument : String) :
    tokens ("open " ++ argument) =
      (scan .bare none argument.toList).map (.word (bare "open") :: ·) := by
  have verb := scan_bareWord "open" (by decide) (List.all_eq_true.1 (by decide +kernel))
  have parts : "open ".toList = "open".toList ++ [' '] := by decide +kernel
  rw [tokens, String.toList_append, parts, List.append_assoc, List.singleton_append, verb]

theorem mapM_word? (words : List Word) : (words.map Token.word).mapM Token.word? = some words := by
  induction words with
  | nil => rfl
  | cons word words ih =>
      rw [List.map_cons, List.mapM_cons, ih]
      rfl

theorem arguments?_open {home : String → String} {argument : String} {words : List Word}
    (scanned : scan .bare none argument.toList = some (words.map .word)) :
    arguments? home ("open " ++ argument) =
      (words.mapM (Word.value? home)).map ("open" :: ·) := by
  have named : (bare "open").isCommandName = true := by decide +kernel
  have verb : (bare "open").value? home = some "open" :=
    value?_bare (List.all_eq_true.1 (by decide +kernel)) home
  have all : (Token.word (bare "open") :: words.map .word).mapM Token.word? =
      some (bare "open" :: words) := mapM_word? (bare "open" :: words)
  simp only [arguments?, tokens_open, scanned, Option.map_some, Option.bind_eq_bind,
    Option.bind_some, all, List.head?_cons, Option.all_some, named, if_true, List.mapM_cons, verb]
  cases words.mapM (Word.value? home) <;> rfl

/-- What a command opens that is given a target, which is quoted if that is needed. -/
theorem arguments?_quoteIfNeeded {target : String} (nonempty : target ≠ "")
    (home : String → String) :
    arguments? home ("open " ++ quoteIfNeeded target) =
      some ("open" :: opened home target) := by
  rw [quoteIfNeeded, opened]
  split
  next plain =>
    rw [List.all_eq_true] at plain
    cases whole : target.toList with
    | nil => exact (nonempty (String.toList_eq_nil_iff.1 whole)).elim
    | cons c rest =>
        have plainRest : ∀ other ∈ rest, isPlain other = true :=
          fun other member => plain other (whole ▸ .tail _ member)
        rw [List.head?_cons]
        by_cases sharp : c = '#'
        · subst sharp
          have oneLine : ∀ other ∈ rest, other ≠ '\n' := fun other member =>
            ne_of_isPlain (plainRest other member) ['\n'] (by decide) '\n' (.head _)
          have comment : scan .bare none target.toList = some (([] : List Word).map .word) := by
            rw [whole]
            exact scan_comment oneLine
          rw [arguments?_open comment, if_pos rfl]
          rfl
        · have word : scan .bare none target.toList = some ([bare target].map .word) := by
            have begins := isOrdinary_of_isPlain (plain c (whole ▸ .head _)) sharp
            rw [bare, whole, scan_ordinary begins, grow, scan_isPlain plainRest]
            rfl
          rw [arguments?_open word, if_neg (sharp ∘ Option.some.inj)]
          simp [value?_bare plain]
  next =>
    have scanned : scan .bare none (singleQuote target).toList =
        some ([target.toList.map quotedLetter].map .word) := by
      have alone := scan_singleQuote target none []
      rw [List.append_nil] at alone
      rw [alone]
      rfl
    rw [arguments?_open scanned]
    simp [value?_quoted]

/-- Whether a target is written without quotes though it begins with a sign of the shell. -/
def IsMisread (target : String) : Prop :=
  target.toList.all isPlain = true ∧
    (target.toList.head? = some '#' ∨ target.toList.head? = some '~')

/-- A tilde and what follows it are not opened wherever the directories are. -/
theorem exists_expandTilde_ne {target : String} (tilde : target.toList.head? = some '~') :
    ∃ home, expandTilde home target ≠ target := by
  refine ⟨fun _ => "", ?_⟩
  intro same
  rw [expandTilde, if_pos tilde, String.empty_append] at same
  have longer : (target.toList.tail.dropWhile (· != '/')).length < target.toList.length := by
    have nonempty : target.toList ≠ [] := by
      rintro empty
      rw [empty] at tilde
      cases tilde
    calc (target.toList.tail.dropWhile (· != '/')).length
        ≤ target.toList.tail.length := (List.dropWhile_suffix _).length_le
      _ < target.toList.length := by
          rw [List.length_tail]
          exact Nat.sub_one_lt (List.length_pos_iff.2 nonempty).ne'
  have chars := congrArg String.toList same
  rw [String.toList_ofList] at chars
  rw [chars] at longer
  exact lt_irrefl _ longer

theorem opened_eq_iff {target : String} :
    (∀ home, opened home target = [target]) ↔ ¬ IsMisread target := by
  constructor
  · rintro same ⟨plain, sharp | tilde⟩
    · have nothing := same id
      rw [opened, if_pos plain, if_pos sharp] at nothing
      cases nothing
    · rcases exists_expandTilde_ne tilde with ⟨home, different⟩
      have expanded := same home
      rw [opened, if_pos plain, if_neg (by simp [tilde]), List.singleton_inj] at expanded
      exact different expanded
  · intro read home
    rw [opened]
    split
    next plain =>
      have notSharp : target.toList.head? ≠ some '#' := fun sharp => read ⟨plain, .inl sharp⟩
      have notTilde : target.toList.head? ≠ some '~' := fun tilde => read ⟨plain, .inr tilde⟩
      rw [if_neg notSharp, expandTilde, if_neg notTilde]
    next => rfl

end Shell

/--
The command that opens a target which passes its check is `open` and what the shell makes of
the target.  That is the target itself, in every environment, exactly if the target is not one
that is written without quotes and begins with a number sign or a tilde.
-/
theorem Action.openTarget_words {target : String}
    (sound : (Action.openTarget target).check = .ok ()) :
    ∃ command, (Action.openTarget target).encode = [.shell command] ∧
      (∀ home, Shell.arguments? home command = some ("open" :: Shell.opened home target)) ∧
      ((∀ home, Shell.arguments? home command = some ["open", target]) ↔
        ¬ Shell.IsMisread target) := by
  have nonempty : target ≠ "" := by
    rintro rfl
    rcases (checkArgument_eq_ok_iff.1 sound).1.solid with ⟨c, member, -⟩
    rw [String.toList_empty] at member
    cases member
  have runs := Shell.arguments?_quoteIfNeeded nonempty
  refine ⟨_, rfl, runs, ?_⟩
  rw [← Shell.opened_eq_iff]
  refine forall_congr' fun home => ?_
  rw [runs, Option.some.injEq, List.cons_inj_right]

namespace Sample

/-- A target with both signs, but not at its beginning. -/
def webTarget : String := "https://ann.net/~ann#top"

theorem check_webTarget : (Action.openTarget webTarget).check = .ok () := by decide +kernel

theorem webTarget_opened :
    (Action.openTarget webTarget).check = .ok () ∧
      (Action.openTarget webTarget).encode = [.shell "open https://ann.net/~ann#top"] ∧
      ¬ Shell.IsMisread webTarget ∧
      ∀ home, Shell.arguments? home "open https://ann.net/~ann#top" =
        some ["open", webTarget] := by
  have notMisread : ¬ Shell.IsMisread webTarget := by
    rintro ⟨-, sharp | tilde⟩
    · exact absurd sharp (by decide +kernel)
    · exact absurd tilde (by decide +kernel)
  have encoded : (Action.openTarget webTarget).encode =
      [.shell "open https://ann.net/~ann#top"] := by decide +kernel
  rcases Action.openTarget_words check_webTarget with ⟨command, same, -, exact⟩
  rw [encoded] at same
  cases same
  exact ⟨check_webTarget, encoded, notMisread, exact.2 notMisread⟩

theorem opened_sharp (home : String → String) : Shell.opened home "#inbox" = [] := by
  rw [Shell.opened, if_pos (by decide +kernel), if_pos (by decide +kernel)]

theorem opened_tilde (home : String → String) :
    Shell.opened home "~/inbox" = [home "" ++ "/inbox"] := by
  have login : String.ofList ("~/inbox".toList.tail.takeWhile (· != '/')) = "" := by
    decide +kernel
  have beyond : String.ofList ("~/inbox".toList.tail.dropWhile (· != '/')) = "/inbox" := by
    decide +kernel
  rw [Shell.opened, if_pos (by decide +kernel), if_neg (by decide +kernel), Shell.expandTilde,
    if_pos (by decide +kernel), login, beyond]

/--
Two targets that pass their check and are not opened: the shell takes one for a comment, and
puts the directory of the user in place of the tilde of the other.
-/
theorem marked_targets_misread :
    (Action.openTarget "#inbox").check = .ok () ∧
      (Action.openTarget "#inbox").encode = [.shell "open #inbox"] ∧
      (∀ home, Shell.arguments? home "open #inbox" = some ["open"]) ∧
      (Action.openTarget "~/inbox").check = .ok () ∧
      (Action.openTarget "~/inbox").encode = [.shell "open ~/inbox"] ∧
      ∀ home, Shell.arguments? home "open ~/inbox" = some ["open", home "" ++ "/inbox"] := by
  have sharp : "open " ++ Shell.quoteIfNeeded "#inbox" = "open #inbox" := by decide +kernel
  have tilde : "open " ++ Shell.quoteIfNeeded "~/inbox" = "open ~/inbox" := by decide +kernel
  refine ⟨by decide +kernel, by decide +kernel, ?_, by decide +kernel, by decide +kernel, ?_⟩
  · intro home
    rw [← sharp, Shell.arguments?_quoteIfNeeded (by decide), opened_sharp]
  · intro home
    rw [← tilde, Shell.arguments?_quoteIfNeeded (by decide), opened_tilde]

end Sample

end KeyLayers
