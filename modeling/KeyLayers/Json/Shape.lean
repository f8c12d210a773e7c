import KeyLayers.Json.Source

/-!
# The part of a text that is read

A record has some fields, and a text may give it members that it has no field
for.  Such a member is skipped without being evaluated, so a numeral or a
nesting that has no value does no harm there.  A `Shape` says where the records
are, and `Shape.prune` removes what is skipped.
-/

namespace KeyLayers.Json

/-- Which parts of a structure are looked at. -/
inductive Shape where
  /-- Everything. -/
  | whole
  /-- A list whose items all have one shape. -/
  | list (item : Shape)
  /-- A record with its fields in order; other members are kept or skipped. -/
  | record (keepOthers : Bool) (fields : List (String × Shape))

/-- The shape of a field. -/
def Shape.field? (fields : List (String × Shape)) (name : Option String) :
    Option Shape :=
  name.bind fun name => fields.lookup name

mutual

/-- Leaves out the members that a shape does not look at. -/
def Source.prune (shape : Shape) : Source → Source
  | .array items =>
      match shape with
      | .whole => .array items
      | .list item => .array (Source.pruneItems item items)
      | .record _ fields => .array (Source.pruneFields (fields.map Prod.snd) items)
  | .object members =>
      match shape with
      | .record keepOthers fields => .object (Source.pruneMembers keepOthers fields members)
      | _ => .object members
  | other => other

/-- Prunes every item by the same shape. -/
def Source.pruneItems (shape : Shape) : List Source → List Source
  | [] => []
  | item :: rest => Source.prune shape item :: Source.pruneItems shape rest

/-- Prunes the items of a record that is written as a list of its fields. -/
def Source.pruneFields (shapes : List Shape) : List Source → List Source
  | [] => []
  | item :: rest =>
      match shapes with
      | [] => item :: rest
      | shape :: shapes => Source.prune shape item :: Source.pruneFields shapes rest

/-- Prunes the fields of a record; a member without a readable name stays. -/
def Source.pruneMembers (keepOthers : Bool) (fields : List (String × Shape)) :
    List (Option String × Source) → List (Option String × Source)
  | [] => []
  | (name, item) :: rest =>
      let rest := Source.pruneMembers keepOthers fields rest
      match Shape.field? fields name with
      | some shape => (name, Source.prune shape item) :: rest
      | none => if keepOthers || name.isNone then (name, item) :: rest else rest

end

mutual

/-- Leaves out the items of a record, written as a list, that it has no field for. -/
def fit (shape : Shape) : Json → Json
  | .arr items =>
      match shape with
      | .whole => .arr items
      | .list item => .arr (fitItems item items)
      | .record _ fields => .arr (fitFields (fields.map Prod.snd) items)
  | .obj members =>
      match shape with
      | .record _ fields => .obj (fitMembers fields members)
      | _ => .obj members
  | other => other

/-- Fits every item to the same shape. -/
def fitItems (shape : Shape) : List Json → List Json
  | [] => []
  | item :: rest => fit shape item :: fitItems shape rest

/-- Fits the items of a record that is written as a list of its fields. -/
def fitFields (shapes : List Shape) : List Json → List Json
  | [] => []
  | item :: rest =>
      match shapes with
      | [] => []
      | shape :: shapes => fit shape item :: fitFields shapes rest

/-- Fits the fields of a record. -/
def fitMembers (fields : List (String × Shape)) :
    List (String × Json) → List (String × Json)
  | [] => []
  | (name, item) :: rest =>
      (name, match fields.lookup name with
        | some shape => fit shape item
        | none => item) :: fitMembers fields rest

end

end KeyLayers.Json
