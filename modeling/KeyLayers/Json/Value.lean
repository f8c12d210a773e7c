import KeyLayers.Decimal.Binary
import KeyLayers.Members

/-!
# JSON values

A `Json` value keeps the members of an object in the order of the text, and
keeps a repeated member too: only what a member is read as decides whether a
repetition is an error.  Where a value is taken over as it is, it is *settled*
first: of a repeated member the last value stays, at the first one's place, and
a number that no text can hold becomes `null`.
-/

namespace KeyLayers

/-- A JSON value with its members in order. -/
inductive Json where
  | null
  | bool (value : Bool)
  | int (value : Int)
  | float (value : Binary64)
  | str (text : String)
  | arr (items : List Json)
  | obj (members : List (String × Json))
deriving Inhabited

namespace Json

mutual

/-- Whether two values are the same, member by member in order. -/
def same : Json → Json → Bool
  | .null, .null => true
  | .bool a, .bool b => a == b
  | .int a, .int b => a == b
  | .float a, .float b => decide (a = b)
  | .str a, .str b => a == b
  | .arr a, .arr b => sameItems a b
  | .obj a, .obj b => sameMembers a b
  | _, _ => false

/-- Whether two lists of values agree at every place. -/
def sameItems : List Json → List Json → Bool
  | [], [] => true
  | a :: as, b :: bs => same a b && sameItems as bs
  | _, _ => false

/-- Whether two lists of members agree at every place. -/
def sameMembers : List (String × Json) → List (String × Json) → Bool
  | [], [] => true
  | (m, a) :: as, (n, b) :: bs => m == n && same a b && sameMembers as bs
  | _, _ => false

end

mutual

theorem same_iff : ∀ a b : Json, same a b = true ↔ a = b
  | .null, b => by cases b <;> simp [same]
  | .bool x, b => by cases b <;> simp [same]
  | .int x, b => by cases b <;> simp [same]
  | .float x, b => by cases b <;> simp [same]
  | .str x, b => by cases b <;> simp [same]
  | .arr x, b => by
      cases b <;> simp [same]
      exact sameItems_iff x _
  | .obj x, b => by
      cases b <;> simp [same]
      exact sameMembers_iff x _

theorem sameItems_iff : ∀ a b : List Json, sameItems a b = true ↔ a = b
  | [], b => by cases b <;> simp [sameItems]
  | x :: xs, b => by
      cases b with
      | nil => simp [sameItems]
      | cons y ys => simp [sameItems, same_iff x y, sameItems_iff xs ys]

theorem sameMembers_iff :
    ∀ a b : List (String × Json), sameMembers a b = true ↔ a = b
  | [], b => by cases b <;> simp [sameMembers]
  | (m, x) :: xs, b => by
      cases b with
      | nil => simp [sameMembers]
      | cons y ys =>
          obtain ⟨n, y⟩ := y
          simp [sameMembers, same_iff x y, sameMembers_iff xs ys]

end

instance : DecidableEq Json := fun a b =>
  decidable_of_iff (same a b = true) (same_iff a b)

mutual

/-- The value as it is taken over where nothing is known about it. -/
def settle : Json → Json
  | .arr items => .arr (settleItems items)
  | .obj members => .obj (Members.ofList (settleMembers members))
  | .float value => if value.isFinite then .float value else .null
  | other => other

/-- Settles every item. -/
def settleItems : List Json → List Json
  | [] => []
  | item :: rest => settle item :: settleItems rest

/-- Settles the value of every member, repeated ones included. -/
def settleMembers : List (String × Json) → List (String × Json)
  | [] => []
  | (name, value) :: rest => (name, settle value) :: settleMembers rest

end

/-- The settled members of an object. -/
def settleObject (members : List (String × Json)) : Members Json :=
  Members.ofList (settleMembers members)

end Json

end KeyLayers
