/-!
# Ordered members

Tables and objects keep their members in the order in which they were first
given a value.  A member that is given a value again keeps its place.  Both
facts are properties of `Members.put`, on which `Members.ofList` is built.
-/

namespace KeyLayers

/-- Named values in the order in which the names first appeared. -/
abbrev Members (α : Type) := List (String × α)

namespace Members

variable {α : Type}

/-- Gives a member a value: in place if the name is present, else at the end. -/
def put (members : Members α) (name : String) (value : α) : Members α :=
  match members with
  | [] => [(name, value)]
  | (other, old) :: rest =>
      if other = name then (name, value) :: rest
      else (other, old) :: put rest name value

/-- The members that a list of assignments leaves behind. -/
def ofList (assignments : List (String × α)) : Members α :=
  assignments.foldl (fun members entry => members.put entry.1 entry.2) []

/-- The names in order. -/
def names (members : Members α) : List String :=
  members.map Prod.fst

/-- The value of the first member with a name. -/
def get? (members : Members α) (name : String) : Option α :=
  (members.find? (·.1 == name)).map Prod.snd

/-- A member that has to be there, as it is read. -/
def field? {β : Type} (members : Members α) (name : String) (read : α → Option β) : Option β :=
  (members.get? name).bind read

/-- A member that has a default, as it is read. -/
def fieldOr? {β : Type} (members : Members α) (name : String) (read : α → Option β)
    (default : β) : Option β :=
  match members.get? name with
  | some value => read value
  | none => some default

/-- The members that do not have the given name. -/
def remove (members : Members α) (name : String) : Members α :=
  members.filter (·.1 != name)

@[simp]
theorem get?_nil (name : String) : get? ([] : Members α) name = none := rfl

theorem get?_put_self (members : Members α) (name : String) (value : α) :
    (members.put name value).get? name = some value := by
  induction members with
  | nil => simp [put, get?]
  | cons head rest ih =>
      obtain ⟨other, old⟩ := head
      by_cases same : other = name
      · simp [put, same, get?]
      · simp only [put, same, if_false]
        simpa [get?, List.find?_cons, same] using ih

theorem get?_put_other (members : Members α) {name other : String} (value : α)
    (differ : other ≠ name) :
    (members.put name value).get? other = members.get? other := by
  induction members with
  | nil => simp [put, get?, Ne.symm differ]
  | cons head rest ih =>
      obtain ⟨first, old⟩ := head
      by_cases same : first = name
      · subst same
        simp [put, get?, Ne.symm differ]
      · simp only [put, same, if_false]
        by_cases hit : first = other
        · simp [get?, hit]
        · simpa [get?, List.find?_cons, hit] using ih

/-- Giving a value adds a name at the end, unless it is there already. -/
theorem names_put (members : Members α) (name : String) (value : α) :
    (members.put name value).names =
      if name ∈ members.names then members.names else members.names ++ [name] := by
  induction members with
  | nil => simp [put, names]
  | cons head rest ih =>
      obtain ⟨other, old⟩ := head
      by_cases same : other = name
      · subst same; simp [put, names]
      · simp only [put, same, if_false]
        have differ : name ≠ other := Ne.symm same
        simp only [names, List.map_cons, List.mem_cons, differ, false_or] at ih ⊢
        rw [ih]
        split <;> simp [*]

end Members

end KeyLayers
