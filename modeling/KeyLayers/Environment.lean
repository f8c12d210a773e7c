import KeyLayers.Text.Letter

/-!
# Expansion of path texts

A tilde at the beginning of a path stands for the home directory.  A dollar sign
begins the name of an environment variable, with or without braces; within
braces a default may follow the name, which also stands for an empty value.  If
a variable without a default is not set, no variable of the path is expanded.
-/

namespace KeyLayers

/-- The environment variables that are set. -/
structure Environment where
  values : List (String × String)

namespace Environment

open Text (isAlphanumeric)

/-- The value of a variable. -/
def get? (environment : Environment) (name : String) : Option String :=
  environment.values.lookup name

/-- The path with a tilde at its beginning replaced by the home directory. -/
def expandTilde (environment : Environment) (path : String) : String :=
  match path.toList, environment.get? "HOME" with
  | ['~'], some home => home
  | '~' :: '/' :: rest, some home => home ++ String.ofList ('/' :: rest)
  | _, _ => path

/-- Whether a character may stand in the name of a variable. -/
def isNameChar (c : Char) : Bool :=
  c == '_' || isAlphanumeric c

/-- The name and the default between braces; a default follows a name. -/
def splitDefault : List Char → List Char × Option (List Char)
  | [] => ([], none)
  | [c] => ([c], none)
  | c :: ':' :: '-' :: rest => ([c], some rest)
  | c :: rest =>
      let (name, default) := splitDefault rest
      (c :: name, default)

/-- What braces with the given content stand for, if the variable is set or has a default. -/
def braced? (environment : Environment) (content : List Char) : Option (List Char) :=
  let (name, default) := splitDefault content
  let whole := '$' :: '\x7b' :: content ++ ['\x7d']
  if name.isEmpty || !name.all isNameChar then some whole
  else
    match environment.get? (String.ofList name), default with
    | none, none => none
    | none, some default => some default
    | some value, default =>
        if value.isEmpty then some (default.getD whole) else some value.toList

/-- The path with every variable replaced, if all of them can be. -/
def expandVariables? (environment : Environment) (path : List Char) : Option (List Char) :=
  match path with
  | [] => some []
  | '$' :: '\x7b' :: rest =>
      match _left : rest.dropWhile (· != '\x7d') with
      | [] => (expandVariables? environment rest).map ('$' :: '\x7b' :: ·)
      | _ :: after => do
          have := (List.dropWhile_suffix (l := rest) (· != '\x7d')).length_le
          let value ← environment.braced? (rest.takeWhile (· != '\x7d'))
          return value ++ (← expandVariables? environment after)
  | '$' :: '$' :: rest => (expandVariables? environment rest).map ('$' :: ·)
  | '$' :: rest =>
      let name := rest.takeWhile isNameChar
      if name.isEmpty then (expandVariables? environment rest).map ('$' :: ·)
      else do
        have := (List.dropWhile_suffix (l := rest) isNameChar).length_le
        let value ← environment.get? (String.ofList name)
        return value.toList ++ (← expandVariables? environment (rest.dropWhile isNameChar))
  | c :: rest => (expandVariables? environment rest).map (c :: ·)
termination_by path.length
decreasing_by
  all_goals simp_all
  all_goals try omega

/-- Whether a path begins with a tilde. -/
def startsWithTilde (path : List Char) : Bool :=
  path.head? == some '~'

/--
The path with its variables and its tilde replaced.

A tilde that comes out of a variable stays as it is.
-/
def expand (environment : Environment) (path : String) : String :=
  match environment.expandVariables? path.toList with
  | none => environment.expandTilde path
  | some expanded =>
      let text := String.ofList expanded
      if startsWithTilde expanded && !startsWithTilde path.toList then text
      else environment.expandTilde text

end Environment

end KeyLayers
