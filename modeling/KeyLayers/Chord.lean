import KeyLayers.Modifier

/-!
# Key chords

A chord is a key together with the modifiers held while it is pressed.
Building one with `Chord.of` brings the modifiers into their normal form, so
order and repetition of the modifiers make no difference.
-/

namespace KeyLayers

/-- A key and the modifiers held with it. -/
structure Chord where
  key : Key
  modifiers : List Modifier
deriving DecidableEq

namespace Chord

/-- The chord of a key and a set of modifiers. -/
def of (key : Key) (modifiers : List Modifier) : Chord :=
  ⟨key, Modifier.canonical modifiers⟩

/-- The modifiers and then the key, joined by plus signs. -/
def display (chord : Chord) : String :=
  String.intercalate "+" (chord.modifiers.map Modifier.name ++ [chord.key.name])

@[simp]
theorem key_of (key : Key) (modifiers : List Modifier) :
    (of key modifiers).key = key := rfl

@[simp]
theorem modifiers_of (key : Key) (modifiers : List Modifier) :
    (of key modifiers).modifiers = Modifier.canonical modifiers := rfl

end Chord

end KeyLayers
