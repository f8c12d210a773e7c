import KeyLayers.Pattern.Atom

/-!
# Sets of characters between brackets

A set lists characters, ranges, families and further sets, and combines what it
has listed so far with what follows by an intersection, a difference or a
symmetric difference.  Of each part only two measures are kept: how deeply it
is nested, and about how many octets its compiled form takes.
-/

namespace KeyLayers.Pattern

open Text (isBlank)

/-- The measures of a part of a pattern. -/
structure Measure where
  /-- How deeply the parts are nested. -/
  depth : Nat := 0
  /-- About how many octets the compiled form takes. -/
  weight : Nat := 0

/-- Parts that stand side by side count as one more level, if there are several. -/
def Measure.join (parts : List Measure) : Measure :=
  let depth := (parts.map Measure.depth).foldl max 0
  { depth := if parts.length ≤ 1 then depth else depth + 1
    weight := (parts.map Measure.weight).foldl (· + ·) 0 }

/-- One level around a part. -/
def Measure.nest (part : Measure) : Measure :=
  { part with depth := part.depth + 1 }

/-! ## Weights -/

/-- The weight of one state of a compiled pattern. -/
def stateWeight : Nat := 32

/-- The weight of a character: a state for each octet of its encoding. -/
def literalWeight (c : Char) : Nat :=
  stateWeight * c.utf8Size

/-- The weight of a set that has almost all characters. -/
def broadWeight : Nat := 1000

/-- The weight of a property, which may have hundreds of ranges. -/
def propertyWeight : Nat := 20000

/-- The weight of a family, many of whose members lie apart from each other. -/
def familyWeight (unicode negated : Bool) : Family → Nat
  | .digit => if unicode then (if negated then 11300 else 4500) else 80
  | .space => if unicode then (if negated then 2000 else 700) else 80
  | .word => if unicode then (if negated then 43700 else 46500) else 100

/-- The weight of an atom. -/
def Atom.weight (mode : Mode) : Atom → Nat
  | .literal c _ => literalWeight c
  | .family kind negated => familyWeight mode.unicode negated kind
  | .property => propertyWeight
  | .place => stateWeight

/-! ## Items -/

/-- Whether a sign may be listed where sets have ASCII characters only. -/
def isListable (mode : Mode) (c : Char) : Bool :=
  mode.unicode || c.toNat < 128

/-- Whether an atom may be listed in a set. -/
def Atom.isItem (mode : Mode) : Atom → Bool
  | .literal c _ => isListable mode c
  | .family _ negated => mode.unicode || !negated
  | .property => mode.unicode
  | .place => false

/--
The sign that decides whether a hyphen makes a range.

Blanks and the sign of a comment are passed over, but not the comment itself.
-/
def afterHyphen? (mode : Mode) (text : List Char) : Option Char :=
  if mode.spaced then
    match text.dropWhile isBlank with
    | '#' :: rest => (rest.dropWhile isBlank).head?
    | left => left.head?
  else text.head?

/-- Reads an item of a set: an atom, or a range between two characters. -/
def readItem (mode : Mode) (text : List Char) : Option (Measure × List Char) := do
  let (first, left) ← readSign mode text
  let single : Option (Measure × List Char) :=
    if first.isItem mode then some (⟨0, first.weight mode⟩, skip mode left) else none
  match skip mode left with
  | '-' :: rest =>
      match afterHyphen? mode rest with
      | some ']' | some '-' => single
      | _ => do
          let (last, left) ← readSign mode (skip mode rest)
          match first, last with
          | .literal low _, .literal high _ =>
              if low ≤ high && isListable mode low && isListable mode high then
                return (⟨0, first.weight mode + last.weight mode⟩, left)
              else none
          | _, _ => none
  | _ => single

/-- The names of the families that are written between colons. -/
def namedFamilies : List String :=
  [ "alnum", "alpha", "ascii", "blank", "cntrl", "digit", "graph", "lower", "print",
    "punct", "space", "upper", "word", "xdigit" ]

/-- Reads a family between colons, after its bracket: whether it is negated. -/
def readNamedFamily? (text : List Char) : Option (Bool × List Char) :=
  match text with
  | ':' :: rest =>
      let negated := rest.head? == some '^'
      let start := if negated then rest.drop 1 else rest
      let name := start.takeWhile (· != ':')
      match start.dropWhile (· != ':') with
      | ':' :: ']' :: left =>
          if namedFamilies.contains (String.ofList name) then some (negated, left) else none
      | _ => none
  | _ => none

/-! ## Nested sets -/

/-- A set that is still open. -/
structure OpenSet where
  /-- What the items so far are combined with. -/
  combined : Option Measure := none
  /-- The items since the last operator. -/
  items : List Measure := []

/-- The measure of everything that an open set has so far. -/
def OpenSet.measure (set : OpenSet) : Measure :=
  let items := Measure.join set.items
  match set.combined with
  | none => items
  | some before => Measure.nest ⟨max before.depth items.depth, before.weight + items.weight⟩

/-- The set with one more item. -/
def OpenSet.add (set : OpenSet) (item : Measure) : OpenSet :=
  { set with items := item :: set.items }

/-- Takes the hyphens at the beginning of a set as characters. -/
def takeHyphens (mode : Mode) (set : OpenSet) (text : List Char) : OpenSet × List Char :=
  match next : skip mode text with
  | '-' :: rest =>
      have shorter : rest.length < text.length := by
        have := length_skip_le mode text
        simp [next] at this
        omega
      takeHyphens mode (set.add ⟨0, stateWeight⟩) rest
  | left => (set, left)
termination_by text.length

/-- Reads the beginning of a set, after its bracket. -/
def openSet (mode : Mode) (text : List Char) : Option (OpenSet × List Char) :=
  let content : Option (List Char) :=
    match skip mode text with
    | '^' :: rest => if mode.unicode then some rest else none
    | start => some start
  content.map fun start =>
    let (set, left) := takeHyphens mode {} start
    match set.items, left with
    | [], ']' :: rest => (set.add ⟨0, stateWeight⟩, rest)
    | _, _ => (set, left)

/-- The two equal signs that combine what stands before and after them. -/
def isOperator (c : Char) : Bool :=
  c == '&' || c == '-' || c == '~'

/--
Reads on with the sets that are open, the innermost one first.

Each step reads at least one sign; the guard on the lengths makes that plain.
-/
def readSets (mode : Mode) (set : OpenSet) (outer : List OpenSet) (text : List Char) :
    Option (Measure × List Char) :=
  let guarded (set : OpenSet) (outer : List OpenSet) (left : List Char) :
      Option (Measure × List Char) :=
    if left.length < text.length then readSets mode set outer left else none
  match skip mode text with
  | [] => none
  | '[' :: rest =>
      match readNamedFamily? rest with
      | some (negated, left) =>
          if mode.unicode || !negated then guarded (set.add ⟨0, 100⟩) outer left else none
      | none =>
          (openSet mode rest).bind fun (inner, left) => guarded inner (set :: outer) left
  | ']' :: rest =>
      let whole := set.measure.nest
      match outer with
      | [] => some (whole, rest)
      | next :: outer => guarded (next.add whole) outer rest
  | c :: d :: rest =>
      if isOperator c && c == d then guarded ⟨some set.measure, []⟩ outer rest
      else (readItem mode (c :: d :: rest)).bind fun (item, left) =>
        guarded (set.add item) outer left
  | [c] => (readItem mode [c]).bind fun (item, left) => guarded (set.add item) outer left
termination_by text.length

/-- Reads a set, after its bracket. -/
def readSet (mode : Mode) (text : List Char) : Option (Measure × List Char) :=
  (openSet mode text).bind fun (set, left) => readSets mode set [] left

end KeyLayers.Pattern
