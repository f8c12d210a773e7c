import KeyLayers.Text.Fold

/-!
# Physical keys

A `Key` is one of the keys that the remapping engine knows, identified by the
name the engine uses for it.  Authors may also write an alias, in any letter
case; `Key.parse` resolves every accepted spelling, so two keys are equal
exactly when they stand for the same physical key.
-/

namespace KeyLayers

/-- A name that stands for no key or for no modifier. -/
inductive NameError where
  | unknownKey (name : String)
  | unknownModifier (name : String)
deriving DecidableEq, Repr

/-- What an author reads about a name that could not be resolved. -/
def NameError.message : NameError → String
  | .unknownKey name => s!"Unknown key name '{name}'"
  | .unknownModifier name => s!"Unknown modifier '{name}'"

/-- The name as the author wrote it. -/
def NameError.name : NameError → String
  | .unknownKey name => name
  | .unknownModifier name => name

namespace Key

/-- The engine's name of every key, in the order of the vocabulary. -/
def names : List String :=
  [ "a", "b", "c", "d", "e", "f", "g", "h", "i", "j", "k", "l", "m",
    "n", "o", "p", "q", "r", "s", "t", "u", "v", "w", "x", "y", "z",
    "1", "2", "3", "4", "5", "6", "7", "8", "9", "0",
    "return_or_enter", "escape", "delete_or_backspace", "delete_forward",
    "tab", "spacebar", "caps_lock",
    "hyphen", "equal_sign", "open_bracket", "close_bracket", "backslash",
    "non_us_pound", "semicolon", "quote", "grave_accent_and_tilde",
    "comma", "period", "slash", "non_us_backslash",
    "f1", "f2", "f3", "f4", "f5", "f6", "f7", "f8", "f9", "f10",
    "f11", "f12", "f13", "f14", "f15", "f16", "f17", "f18", "f19", "f20",
    "up_arrow", "down_arrow", "left_arrow", "right_arrow",
    "page_up", "page_down", "home", "end", "insert",
    "left_control", "left_shift", "left_option", "left_command",
    "right_control", "right_shift", "right_option", "right_command", "fn",
    "volume_increment", "volume_decrement", "mute",
    "display_brightness_increment", "display_brightness_decrement",
    "play_or_pause", "fastforward", "rewind",
    "print_screen", "scroll_lock", "pause", "application" ]

/-- Other spellings that authors may use, each with the name it stands for. -/
def aliases : List (String × String) :=
  [ ("space", "spacebar"), ("esc", "escape"),
    ("enter", "return_or_enter"), ("return", "return_or_enter"),
    ("backspace", "delete_or_backspace"), ("delete", "delete_forward"),
    ("capslock", "caps_lock"),
    ("up", "up_arrow"), ("down", "down_arrow"),
    ("left", "left_arrow"), ("right", "right_arrow"),
    ("pageup", "page_up"), ("pagedown", "page_down"),
    ("-", "hyphen"), ("minus", "hyphen"),
    ("=", "equal_sign"), ("equal", "equal_sign"),
    ("[", "open_bracket"), ("]", "close_bracket"), ("\\", "backslash"),
    (";", "semicolon"), ("'", "quote"),
    ("`", "grave_accent_and_tilde"), ("grave", "grave_accent_and_tilde"),
    (",", "comma"), (".", "period"), ("/", "slash") ]

end Key

/-- A physical key of the vocabulary. -/
structure Key where
  /-- The engine's name of the key. -/
  name : String
  /-- The name belongs to the vocabulary. -/
  known : name ∈ Key.names
deriving DecidableEq

namespace Key

/-- The key with exactly the given engine name. -/
def ofName? (name : String) : Option Key :=
  if known : name ∈ names then some ⟨name, known⟩ else none

/-- The key that a folded spelling stands for: a name first, then an alias. -/
def ofSpelling? (spelling : String) : Option Key :=
  ofName? spelling <|> (aliases.lookup spelling).bind ofName?

/-- Resolves a name or an alias, without regard to case and outer blanks. -/
def parse (name : String) : Except NameError Key :=
  match ofSpelling? (Text.fold name) with
  | some key => .ok key
  | none => .error (.unknownKey name)

/-- Every key, in the order of the vocabulary. -/
def all : List Key :=
  names.filterMap ofName?

@[ext]
theorem ext {left right : Key} (same : left.name = right.name) :
    left = right := by
  cases left; cases right; cases same; rfl

@[simp]
theorem ofName?_name (key : Key) : ofName? key.name = some key := by
  simp [ofName?, key.known]

/-- The engine's names are written in the form in which names are compared. -/
theorem fold_name (key : Key) : Text.fold key.name = key.name := by
  have folded : ∀ name ∈ names, Text.fold name = name := by decide +kernel
  exact folded key.name key.known

theorem name_of_ofName? {name : String} {key : Key}
    (found : ofName? name = some key) : key.name = name := by
  unfold ofName? at found
  split at found
  · cases found; rfl
  · cases found

end Key

end KeyLayers
