import KeyLayers.Toml.Value

/-!
# Building a TOML document

A document is a sequence of statements: headers, which say where the following
assignments belong, and assignments of values to paths.  A table may be named by
the path of a header, by a header of its own, or by a dotted key.  A header may
name a table that exists only as part of a longer path, and moves it to the
end; nothing else is defined twice.  A value in brackets or braces is complete
as it stands.
-/

namespace KeyLayers.Toml

/-- One statement of a document. -/
inductive Statement where
  /-- The following assignments belong to a table. -/
  | header (path : List String)
  /-- They belong to a new table at the end of a list of tables. -/
  | itemHeader (path : List String)
  | assign (path : List String) (value : Toml)

/-- What has made a table known. -/
inductive Origin where
  /-- It is part of the path of a header. -/
  | path
  /-- It has a header of its own. -/
  | header
  /-- It is part of a dotted key. -/
  | dotted
deriving DecidableEq, Repr

/-- A value of a document that is being built. -/
inductive Draft where
  /-- A value that is complete. -/
  | whole (content : Toml)
  | table (origin : Origin) (members : List (String × Draft))
  /-- Tables with a header each, the last one first. -/
  | tables (items : List (List (String × Draft)))

namespace Draft

/-- The members with the value of one of them replaced, in place. -/
def replace (members : Members Draft) (name : String) (draft : Draft) : Members Draft :=
  Members.put members name draft

/-- Assigns a value to a dotted key. -/
def assign? (value : Toml) : List String → Members Draft → Option (Members Draft)
  | [], _ => none
  | [name], members =>
      if (members.get? name).isSome then none else some (members ++ [(name, .whole value)])
  | name :: path, members =>
      match members.get? name with
      | none => (assign? value path []).map fun inner => members ++ [(name, .table .dotted inner)]
      | some (.table origin inner) =>
          if origin = .header then none
          else
            (assign? value path inner).map fun inner =>
              replace members name (.table origin inner)
      | some _ => none

/-- Applies a change to the members at the path of a header. -/
def change? (change : String → Members Draft → Option (Members Draft)) :
    List String → Members Draft → Option (Members Draft)
  | [], _ => none
  | [name], members => change name members
  | name :: path, members =>
      match members.get? name with
      | none => (change? change path []).map fun inner => members ++ [(name, .table .path inner)]
      | some (.table origin inner) =>
          (change? change path inner).map fun inner => replace members name (.table origin inner)
      | some (.tables (last :: before)) =>
          (change? change path last).map fun last => replace members name (.tables (last :: before))
      | some _ => none

/-- Gives a table its header; one known from a longer path moves to the end. -/
def openTable? (name : String) (members : Members Draft) : Option (Members Draft) :=
  match members.get? name with
  | none => some (members ++ [(name, .table .header [])])
  | some (.table .path inner) => some (members.remove name ++ [(name, .table .header inner)])
  | some _ => none

/-- Begins a new table of a list of tables. -/
def openItem? (name : String) (members : Members Draft) : Option (Members Draft) :=
  match members.get? name with
  | none => some (members ++ [(name, .tables [[]])])
  | some (.tables items) => some (replace members name (.tables ([] :: items)))
  | some _ => none

/-- Assigns a value in the table of the current header. -/
def assignIn? (path : List String) (value : Toml) (name : String) (members : Members Draft) :
    Option (Members Draft) :=
  match members.get? name with
  | some (.table origin inner) =>
      (assign? value path inner).map fun inner => replace members name (.table origin inner)
  | some (.tables (last :: before)) =>
      (assign? value path last).map fun last => replace members name (.tables (last :: before))
  | _ => none

/-- The document after one more statement, and the current header. -/
def step? (document : Members Draft) (header : List String) :
    Statement → Option (Members Draft × List String)
  | .header path => (change? openTable? path document).map (·, path)
  | .itemHeader path => (change? openItem? path document).map (·, path)
  | .assign path value =>
      (if header.isEmpty then assign? value path document
        else change? (assignIn? path value) header document).map (·, header)

/-- The document that some statements leave behind. -/
def build? (document : Members Draft) (header : List String) :
    List Statement → Option (Members Draft)
  | [] => some document
  | statement :: rest =>
      match step? document header statement with
      | some (document, header) => build? document header rest
      | none => none

mutual

/-- The value of a draft. -/
def finish : Draft → Toml
  | .whole content => content
  | .table _ members => .table (finishMembers members)
  | .tables items => .array (finishItems items).reverse

/-- The values of all members. -/
def finishMembers : List (String × Draft) → List (String × Toml)
  | [] => []
  | (name, draft) :: rest => (name, finish draft) :: finishMembers rest

/-- The values of the tables of a list. -/
def finishItems : List (List (String × Draft)) → List Toml
  | [] => []
  | members :: rest => .table (finishMembers members) :: finishItems rest

end

end Draft

/-- The table that some statements describe, if they fit together. -/
def ofStatements? (statements : List Statement) : Option (Members Toml) :=
  (Draft.build? [] [] statements).map Draft.finishMembers

end KeyLayers.Toml
