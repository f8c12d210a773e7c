import KeyLayers.Action
import Mathlib.Data.List.Basic

/-!
# Words as a shell reads them

A POSIX shell reads a command from left to right.  Blanks and operators end a word,
and quotes do not: they say of each character whether the shell may still give it a
meaning of its own.  `Shell.tokens` keeps this next to every character, so that a
character outside quotes can be told from the same one inside them.

A word between single quotes is read back as it was written, whatever it contains
(`Shell.scan_singleQuote`).  An application is therefore launched by its own name and
by nothing else (`Action.launchApp_words`).
-/

namespace KeyLayers

namespace Shell

/-! ## Tokens -/

/-- How a character stands in a word. -/
inductive Quoting where
  | bare
  /-- After a backslash. -/
  | escaped
  | single
  /-- In double quotes, where some expansions are still made. -/
  | double
deriving DecidableEq

/-- A character of a word. -/
structure Letter where
  char : Char
  quoting : Quoting
deriving DecidableEq

/-- The letters of a word, without the quotes. -/
abbrev Word := List Letter

/-- What a command falls into. -/
inductive Token where
  | word (word : Word)
  /-- One character of an operator; the end of a line is one, too. -/
  | operator (sign : Char)
deriving DecidableEq

/-- Where in a command a character is read. -/
inductive Context where
  | bare
  /-- After a backslash outside quotes. -/
  | escape
  | single
  | double
  /-- After a backslash in double quotes. -/
  | doubleEscape
  | comment

/-- The characters that separate words. -/
def isSeparator (c : Char) : Bool :=
  [' ', '\t'].contains c

/-- The characters that are operators or parts of them. -/
def isOperator (c : Char) : Bool :=
  ['\n', '&', '|', ';', '<', '>', '(', ')'].contains c

/-- The characters that a backslash escapes in double quotes. -/
def isEscapable (c : Char) : Bool :=
  ['$', '`', '"', '\\'].contains c

/-- The word so far with one more letter. -/
def grow (word : Option Word) (c : Char) (quoting : Quoting) : Option Word :=
  some (word.getD [] ++ [⟨c, quoting⟩])

/-- The word so far, if one has begun, before other tokens. -/
def finish (word : Option Word) (tokens : List Token) : List Token :=
  (word.map Token.word).toList ++ tokens

/--
The tokens of the rest of a command, given the word that has begun.  There are none if
a quote is not closed or nothing follows a backslash.
-/
def scan : Context → Option Word → List Char → Option (List Token)
  | .bare, word, [] | .comment, word, [] => some (finish word [])
  | _, _, [] => none
  | .bare, word, c :: rest =>
      if c = '\'' then scan .single (some (word.getD [])) rest
      else if c = '"' then scan .double (some (word.getD [])) rest
      else if c = '\\' then scan .escape word rest
      else if isSeparator c then (scan .bare none rest).map (finish word)
      else if isOperator c then
        (scan .bare none rest).map fun tokens => finish word (.operator c :: tokens)
      else if c = '#' ∧ word = none then scan .comment none rest
      else scan .bare (grow word c .bare) rest
  | .escape, word, c :: rest =>
      if c = '\n' then scan .bare word rest else scan .bare (grow word c .escaped) rest
  | .single, word, c :: rest =>
      if c = '\'' then scan .bare word rest else scan .single (grow word c .single) rest
  | .double, word, c :: rest =>
      if c = '"' then scan .bare word rest
      else if c = '\\' then scan .doubleEscape word rest
      else scan .double (grow word c .double) rest
  | .doubleEscape, word, c :: rest =>
      if c = '\n' then scan .double word rest
      else if isEscapable c then scan .double (grow word c .escaped) rest
      else scan .double (grow (grow word '\\' .double) c .double) rest
  | .comment, word, c :: rest =>
      if c = '\n' then
        (scan .bare none rest).map fun tokens => finish word (.operator c :: tokens)
      else scan .comment word rest

/-- The tokens of a command. -/
def tokens (command : String) : Option (List Token) :=
  scan .bare none command.toList

/-- A word without quotes. -/
def bare (text : String) : Word :=
  text.toList.map (⟨·, .bare⟩)

/-- The characters of a word. -/
def Word.text (word : Word) : String :=
  String.ofList (word.map Letter.char)

example : tokens "open -a 'it'; rm x # y'" =
    some [.word (bare "open"), .word (bare "-a"),
      .word [⟨'i', .single⟩, ⟨'t', .single⟩], .operator ';',
      .word (bare "rm"), .word (bare "x")] := by decide +kernel

example : tokens "open -a 'it's'" = none := by decide +kernel

/-! ## Words without quotes -/

/-- The characters that neither quote nor end a word, and that do not begin a comment. -/
def isOrdinary (c : Char) : Bool :=
  !(['\'', '"', '\\', '#'].contains c || isSeparator c || isOperator c)

theorem scan_ordinary {c : Char} (ordinary : isOrdinary c = true) (word : Option Word)
    (rest : List Char) :
    scan .bare word (c :: rest) = scan .bare (grow word c .bare) rest := by
  simp only [isOrdinary, Bool.not_eq_true', Bool.or_eq_false_iff, List.contains_cons,
    beq_eq_false_iff_ne] at ordinary
  rcases ordinary with ⟨⟨⟨single, double, backslash, sharp, -⟩, separator⟩, operator⟩
  rw [scan, if_neg single, if_neg double, if_neg backslash, separator, operator]
  simp [sharp]

/-- Ordinary characters before a blank are a word. -/
theorem scan_bareWord (text : String) (nonempty : text ≠ "")
    (ordinary : ∀ c ∈ text.toList, isOrdinary c = true) (rest : List Char) :
    scan .bare none (text.toList ++ ' ' :: rest) =
      (scan .bare none rest).map (Token.word (bare text) :: ·) := by
  have further : ∀ (chars : List Char) (word : Word), (∀ c ∈ chars, isOrdinary c = true) →
      scan .bare (some word) (chars ++ ' ' :: rest) =
        (scan .bare none rest).map (Token.word (word ++ chars.map (⟨·, .bare⟩)) :: ·) := by
    intro chars
    induction chars with
    | nil =>
        intro word _
        rw [List.map_nil, List.append_nil]
        rfl
    | cons c chars ih =>
        intro word ordinary
        rw [List.cons_append, scan_ordinary (ordinary c (.head _)), grow, Option.getD_some,
          ih _ fun other member => ordinary other (.tail _ member), List.map_cons,
          List.append_assoc, List.singleton_append]
  rw [bare]
  cases whole : text.toList with
  | nil => exact (nonempty (String.toList_eq_nil_iff.1 whole)).elim
  | cons c chars =>
      rw [whole] at ordinary
      rw [List.cons_append, scan_ordinary (ordinary c (.head _)), grow,
        further chars _ fun other member => ordinary other (.tail _ member)]
      rfl

/-! ## Single quotes -/

/-- A character of a word that was put between single quotes. -/
def quotedLetter (c : Char) : Letter :=
  ⟨c, if c = '\'' then .escaped else .single⟩

/-- Between single quotes a character is one letter, whether or not it has to be escaped. -/
theorem scan_quotedChar (c : Char) (word : Word) (rest : List Char) :
    scan .single (some word)
        ((if c = '\'' then ['\'', '\\', '\'', '\''] else [c]) ++ rest) =
      scan .single (some (word ++ [quotedLetter c])) rest := by
  by_cases quote : c = '\''
  · subst quote
    rfl
  · rw [if_neg quote, List.singleton_append, scan, if_neg quote, quotedLetter, if_neg quote]
    rfl

/-- A word between single quotes is a word, or continues one, letter by letter. -/
theorem scan_singleQuote (text : String) (word : Option Word) (rest : List Char) :
    scan .bare word ((singleQuote text).toList ++ rest) =
      scan .bare (some (word.getD [] ++ text.toList.map quotedLetter)) rest := by
  have inside : ∀ (chars : List Char) (word : Word),
      scan .single (some word)
          (chars.flatMap (fun c => if c = '\'' then ['\'', '\\', '\'', '\''] else [c]) ++
            '\'' :: rest) =
        scan .bare (some (word ++ chars.map quotedLetter)) rest := by
    intro chars
    induction chars with
    | nil =>
        intro word
        rw [List.map_nil, List.append_nil]
        rfl
    | cons c chars ih =>
        intro word
        rw [List.flatMap_cons, List.append_assoc, scan_quotedChar, ih, List.map_cons,
          List.append_assoc, List.singleton_append]
  rw [singleQuote, String.toList_ofList, List.append_assoc, List.singleton_append]
  exact inside text.toList (word.getD [])

end Shell

/-! ## Applications -/

/--
The command that launches an application has three words, whatever the application is
called.  The last one is the name of the application, and of its characters only the
quotes stand outside single quotes, each after a backslash.
-/
theorem Action.launchApp_words (name : String) :
    ∃ (command : String) (word : Shell.Word),
      (Action.launchApp name).encode = [.shell command] ∧
        Shell.tokens command =
          some [.word (Shell.bare "open"), .word (Shell.bare "-a"), .word word] ∧
        word.text = name ++ ".app" ∧
        ∀ letter ∈ word, letter.quoting = .single ∨
          letter.char = '\'' ∧ letter.quoting = .escaped := by
  refine ⟨_, (name ++ ".app").toList.map Shell.quotedLetter, rfl, ?tokens, ?text, ?quoted⟩
  case tokens =>
    have verb := Shell.scan_bareWord "open" (by decide)
      (List.all_eq_true.1 (by decide +kernel))
    have option := Shell.scan_bareWord "-a" (by decide)
      (List.all_eq_true.1 (by decide +kernel))
    have last := Shell.scan_singleQuote (name ++ ".app") none []
    have parts : "open -a ".toList = "open".toList ++ ' ' :: ("-a".toList ++ [' ']) := by
      decide +kernel
    rw [List.append_nil] at last
    rw [Shell.tokens, String.toList_append, parts, List.append_assoc, List.cons_append, verb,
      List.append_assoc, List.singleton_append, option, last]
    rfl
  case text =>
    rw [Shell.Word.text, List.map_map]
    exact (congrArg String.ofList (List.map_id _)).trans String.ofList_toList
  case quoted =>
    intro letter member
    rcases List.mem_map.1 member with ⟨c, -, rfl⟩
    rw [Shell.quotedLetter]
    split
    · next quote => exact Or.inr ⟨quote, rfl⟩
    · exact Or.inl rfl

end KeyLayers
