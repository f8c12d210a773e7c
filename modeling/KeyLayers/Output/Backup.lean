import KeyLayers.Timestamp

/-!
# Backups

A backup has the name of the output, a dot, and the moment at which it was
taken.  Whatever else is in the directory of the backups is none.

Backups are listed from the newest to the oldest one; of two from the same
moment the one with the greater name comes first, so the order of the list does
not depend on the order of the directory.
-/

namespace KeyLayers

/-- A backup, by the moment at which it was taken and its name. -/
structure Backup where
  time : Timestamp
  name : String
deriving DecidableEq

namespace Backup

/-- What the names of all backups of an output begin with. -/
def stem (output : String) : String :=
  output ++ "."

/-- The name of a backup taken at a given moment. -/
def nameAt (output : String) (time : Timestamp) : String :=
  stem output ++ time.text

/-- The backup of an output with a given name, if its end is a moment. -/
def ofName? (time? : String → Option Timestamp) (output name : String) : Option Backup := do
  let rest ← (stem output).toList.isPrefixOf? name.toList
  let time ← time? (String.ofList rest)
  return { time, name }

/-- Whether a backup may stand before another one in a list. -/
def isBefore (left right : Backup) : Bool :=
  if left.time = right.time then decide (right.name ≤ left.name)
  else right.time.le left.time

/-- The backups of an output among some names, from the newest to the oldest one. -/
def among (time? : String → Option Timestamp) (output : String) (names : List String) :
    List Backup :=
  (names.filterMap (ofName? time? output)).mergeSort isBefore

end Backup

end KeyLayers
