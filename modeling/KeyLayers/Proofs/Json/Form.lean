import KeyLayers.Proofs.Json.Settle
import KeyLayers.Proofs.Outcome

/-!
# Members without a field

A record is read into fields, and each kind of record has its own way with the
members that it has no field for: it keeps them, ignores them, or is not read from a
value that has some.  A `Form` says how the records of a value are nested and what
becomes of the other members, so it has an answer for every place in the value, at
any depth (`Form.inside`).

What has been read and written back follows a form (`Form.Follows`) if the answers
are right: what is kept stands at the same place, what is ignored is gone, and a
field that is said to be plain holds no record.  The lemmas go from the parts of a
value to the value, one for each way to write a form.
-/

namespace KeyLayers

namespace Json

/-! ## Places -/

/-- A step from a value to one of its parts. -/
inductive Step where
  | member (name : String)
  | item (index : Nat)
deriving DecidableEq

/-- The steps from a value to a part at some depth. -/
abbrev Place := List Step

/-- The part that one step leads to; of a repeated member the first value. -/
def step? : Json → Step → Option Json
  | .obj members, .member name => Members.get? members name
  | .arr items, .item index => items[index]?
  | _, _ => none

/-- The part at a place. -/
def at? (value : Json) : Place → Option Json
  | [] => some value
  | step :: rest => (value.step? step).bind fun part => part.at? rest

theorem step?_member_of_closedRecord? {names : List String} {value : Json}
    {fields : Members Json} (found : value.closedRecord? names = some fields) {name : String}
    (unknown : name ∉ names) : value.step? (.member name) = none := by
  cases value with
  | obj members =>
      simp only [closedRecord?, Option.ite_none_right_eq_some, List.isEmpty_iff] at found
      rw [step?, ← get?_others members unknown, found.1]
      rfl
  | _ => rfl

/-- A field of a record that is written as an object is one of its members. -/
theorem get?_of_member {names : List String} {value part : Json} {fields : Members Json}
    (found : value.record? names = some fields) {name : String} (known : name ∈ names)
    (here : value.step? (.member name) = some part) : fields.get? name = some part := by
  cases value with
  | obj members =>
      simp only [record?, known?, Option.ite_none_right_eq_some, Option.some.injEq] at found
      rcases found with ⟨-, rfl⟩
      exact (get?_known members known).trans here
  | _ => cases here

theorem get?_zip {names : List String} {items : List Json} (distinct : names.Nodup) {index : Nat}
    {part : Json} (short : items.length ≤ names.length) (here : items[index]? = some part) :
    ∃ name, names[index]? = some name ∧ Members.get? (names.zip items) name = some part := by
  induction items generalizing names index with
  | nil => cases here
  | cons item items ih =>
      cases names with
      | nil => cases short
      | cons first names =>
          rw [List.nodup_cons] at distinct
          rw [List.zip_cons_cons]
          cases index with
          | zero =>
              cases here
              exact ⟨first, rfl, Members.get?_cons_self ..⟩
          | succ index =>
              rcases ih distinct.2 (Nat.le_of_succ_le_succ short) here with ⟨name, named, found⟩
              have other : name ≠ first := by
                rintro rfl
                exact distinct.1 (List.mem_of_getElem? named)
              exact ⟨name, named, (Members.get?_cons_other other).trans found⟩

/-- A field of a record that is written as a list is one of its items. -/
theorem get?_of_item {names : List String} {value part : Json} {fields : Members Json}
    (found : value.record? names = some fields) (distinct : names.Nodup) {index : Nat}
    (here : value.step? (.item index) = some part) :
    ∃ name, names[index]? = some name ∧ fields.get? name = some part := by
  cases value with
  | arr items =>
      simp only [record?, Option.ite_none_right_eq_some, Option.some.injEq] at found
      rcases found with ⟨short, rfl⟩
      exact get?_zip distinct short here
  | _ => cases here

/-! ## Forms -/

/-- What there are fields for in a value, and what becomes of everything else. -/
inductive Form where
  /-- A field without records: a text, a number, an enumerator, or a list of these. -/
  | plain
  /-- What is written back as it is. -/
  | kept
  /-- What is skipped, and not written back. -/
  | ignored
  /-- What is not there. -/
  | absent
  /-- A list with a form for each of its items. -/
  | list (items : List Form)
  /-- A record with its fields in order; it can be written as a list of them. -/
  | record (others : Form) (fields : List (String × Form))

/-- Whether a value is a text, a number, an enumerator, or a list of these. -/
inductive IsPlain : Json → Prop where
  | null : IsPlain .null
  | bool (value : Bool) : IsPlain (.bool value)
  | int (number : Int) : IsPlain (.int number)
  | str (text : String) : IsPlain (.str text)
  /-- A name that is written as an object. -/
  | name (name : String) : IsPlain (.obj [(name, .null)])
  | arr {items : List Json} (plain : ∀ item ∈ items, IsPlain item) : IsPlain (.arr items)

namespace Form

/-- The form of the part that a step leads to. -/
def step : Form → Step → Form
  | .list items, .item index => items[index]?.getD .absent
  | .list _, .member _ => .absent
  | .record others fields, .member name => (fields.lookup name).getD others
  | .record _ fields, .item index => (fields[index]?.map Prod.snd).getD .absent
  | form, _ => form

/-- The form of what stands at a place. -/
def inside : Form → Place → Form
  | form, [] => form
  | form, step :: rest => (form.step step).inside rest

/-- What a form says of a part, given what is written at the place of the part. -/
def Holds (part : Json) (written : Option Json) : Form → Prop
  | .plain => part.IsPlain
  | .kept => written = some part
  | .ignored => written = none
  | .absent => False
  | .list _ | .record _ _ => True

/-- Whether there is no field for what has a form. -/
def IsOther : Form → Prop
  | .kept | .ignored | .absent => True
  | .plain | .list _ | .record _ _ => False

/-- Whether nothing is ignored anywhere in what has a form. -/
def Lossless (form : Form) : Prop :=
  ∀ place, form.inside place ≠ .ignored

/-- Whether a form is right about everything in a value, given what is written for the value. -/
def Follows (form : Form) (value : Json) (written : Option Json) : Prop :=
  ∀ place part, value.at? place = some part →
    (form.inside place).Holds part (written.bind fun value => value.at? place)

/-- A form is right about a value if it is right about the value itself and about its parts. -/
theorem follows_of_steps {form : Form} {value : Json} {written : Option Json}
    (holds : form.Holds value written)
    (steps : ∀ step part, value.step? step = some part →
      (form.step step).Follows part (written.bind fun value => value.step? step)) :
    form.Follows value written := by
  intro place part here
  cases place with
  | nil =>
      cases here
      cases written <;> exact holds
  | cons step rest =>
      rcases Option.bind_eq_some_iff.1 here with ⟨inner, found, here⟩
      have follows := steps step inner found rest part here
      rw [Option.bind_assoc] at follows
      exact follows

theorem inside_plain (place : Place) : plain.inside place = plain := by
  induction place with
  | nil => rfl
  | cons step rest ih => exact ih

theorem inside_kept (place : Place) : kept.inside place = kept := by
  induction place with
  | nil => rfl
  | cons step rest ih => exact ih

theorem inside_ignored (place : Place) : ignored.inside place = ignored := by
  induction place with
  | nil => rfl
  | cons step rest ih => exact ih

theorem inside_absent (place : Place) : absent.inside place = absent := by
  induction place with
  | nil => rfl
  | cons step rest ih => exact ih

theorem follows_kept (value : Json) : kept.Follows value (some value) := by
  intro place part here
  rw [inside_kept]
  exact here

theorem follows_ignored (value : Json) : ignored.Follows value none := by
  intro place part here
  rw [inside_ignored]
  rfl

/-! ## Plain fields -/

end Form

theorem IsPlain.of_step? {value part : Json} {step : Step} (plain : value.IsPlain)
    (here : value.step? step = some part) : part.IsPlain := by
  cases plain with
  | arr plain =>
      cases step with
      | item index => exact plain part (List.mem_of_getElem? here)
      | member name => cases here
  | name spelled =>
      cases step with
      | member name =>
          rcases List.mem_singleton.1 (Members.mem_of_get? here) with ⟨⟩
          exact .null
      | item index => cases here
  | _ => cases step <;> cases here

/-- Whether a reader reads nothing but plain values. -/
def ReadsPlain {α : Type} (read : Json → Option α) : Prop :=
  ∀ value result, read value = some result → value.IsPlain

theorem readsPlain_text : ReadsPlain text? := by
  intro value text found
  cases value with
  | str => exact .str _
  | _ => cases found

theorem readsPlain_bool : ReadsPlain bool? := by
  intro value truth found
  cases value with
  | bool => exact .bool _
  | _ => cases found

theorem readsPlain_int : ReadsPlain int? := by
  intro value number found
  cases value with
  | int => exact .int _
  | _ => cases found

theorem readsPlain_variant : ReadsPlain variant? := by
  intro value name found
  unfold variant? at found
  split at found
  · exact .str _
  · exact .name _
  · cases found

section

variable {α β : Type} {read : Json → Option α}

theorem ReadsPlain.bind (plain : ReadsPlain read) (next : α → Option β) :
    ReadsPlain fun value => (read value).bind next := by
  intro value result found
  rcases Option.bind_eq_some_iff.1 found with ⟨first, here, -⟩
  exact plain value first here

theorem ReadsPlain.list (plain : ReadsPlain read) : ReadsPlain (list? read) := by
  intro value results found
  cases value with
  | arr items =>
      refine .arr fun item member => ?_
      rcases List.getElem?_of_mem member with ⟨index, listed⟩
      rcases getElem?_of_mapM found listed with ⟨result, -, reads⟩
      exact plain item result reads
  | _ => cases found

theorem ReadsPlain.optional (plain : ReadsPlain read) : ReadsPlain (optional? read) := by
  intro value result found
  unfold optional? at found
  split at found
  · exact .null
  · rcases Option.map_eq_some_iff.1 found with ⟨inner, here, -⟩
    exact plain value inner here

end

namespace Form

theorem follows_plain {value : Json} (isPlain : value.IsPlain) (written : Option Json) :
    plain.Follows value written := by
  intro place
  induction place generalizing value with
  | nil =>
      rintro part ⟨⟩
      exact isPlain
  | cons step rest ih =>
      intro part here
      rcases Option.bind_eq_some_iff.1 here with ⟨inner, found, here⟩
      have holds := ih (isPlain.of_step? found) part here
      rw [inside_plain] at holds ⊢
      exact holds

/-! ## Lists -/

/-- A form is right about a list if it is right about the items. -/
theorem follows_list {α : Type} {read : Json → Option α} {write : α → Json} (form : α → Form)
    {items : List Json} {values : List α} (found : items.mapM read = some values)
    (each : ∀ item ∈ items, ∀ value, read item = some value →
      (form value).Follows item (some (write value))) :
    (Form.list (values.map form)).Follows (.arr items) (listField write values) := by
  refine follows_of_steps trivial fun step item here => ?_
  cases step with
  | member name => cases here
  | item index =>
      rcases getElem?_of_mapM found here with ⟨value, given, reads⟩
      have written : listField write values = some (.arr (values.map write)) := by
        rw [listField, if_neg]
        rw [List.isEmpty_iff]
        exact List.ne_nil_of_mem (List.mem_of_getElem? given)
      rw [written, Option.bind_some, Form.step, Json.step?, List.getElem?_map, List.getElem?_map,
        given]
      exact each item (List.mem_of_getElem? here) value reads

/-! ## Records -/

/-- Whether the form of a field is right about it, if it is a member and if it is an item. -/
structure FieldFollows (value : Json) (fields : Members Json) (written : Option Json)
    (field : String × Form) : Prop where
  member : ∀ part, fields.get? field.1 = some part →
    field.2.Follows part (written.bind fun value => value.step? (.member field.1))
  item : ∀ part, (∃ items, value = .arr items) → fields.get? field.1 = some part →
    field.2.Follows part none

/--
A form is right about a record if it is right about its fields and about the other
members.  A record that is written as a list of its fields is written back as an
object, so nothing stands at the same place any more.
-/
theorem follows_record {names : List String} {others : Form} {forms : List (String × Form)}
    {value : Json} {fields : Members Json} {written : Option Json}
    (found : value.record? names = some fields) (named : forms.map Prod.fst = names)
    (distinct : names.Nodup) (each : ∀ field ∈ forms, FieldFollows value fields written field)
    (other : ∀ name part, name ∉ names → value.step? (.member name) = some part →
      others.Follows part (written.bind fun value => value.step? (.member name)))
    (noItem : ∀ index, (written.bind fun value => value.step? (.item index)) = none) :
    (Form.record others forms).Follows value written := by
  subst named
  refine follows_of_steps trivial fun step part here => ?_
  cases step with
  | member name =>
      rw [Form.step]
      cases field : forms.lookup name with
      | none => exact other name part (lookup_eq_none_iff.1 field) here
      | some form =>
          have known := mem_of_lookup field
          have given := get?_of_member found (List.mem_map_of_mem known) here
          exact (each _ known).member part given
  | item index =>
      rcases get?_of_item found distinct here with ⟨name, named, given⟩
      rw [List.getElem?_map, Option.map_eq_some_iff] at named
      rcases named with ⟨field, listed, rfl⟩
      have isList : ∃ items, value = .arr items := by
        cases value with
        | arr items => exact ⟨items, rfl⟩
        | _ => cases here
      rw [Form.step, listed, noItem]
      exact (each field (List.mem_of_getElem? listed)).item part isList given

theorem fieldFollows_plain {value : Json} {fields : Members Json} {written : Option Json}
    {name : String} (isPlain : ∀ part, fields.get? name = some part → part.IsPlain) :
    FieldFollows value fields written (name, .plain) where
  member part here := follows_plain (isPlain part here) _
  item part _ here := follows_plain (isPlain part here) _

/-- A form is right about an object that keeps its other members if it is about the fields. -/
theorem follows_open {names : List String} {forms : List (String × Form)}
    {members : List (String × Json)} {fields extra : Members Json}
    {slots : List (String × Option Json)} (settled : SettledMembers members)
    (opened : (Json.obj members).openRecord? names = some (fields, extra))
    (named : forms.map Prod.fst = names) (slotted : slots.map Prod.fst = names)
    (distinct : names.Nodup)
    (each : ∀ field ∈ forms, ∀ part, fields.get? field.1 = some part →
      field.2.Follows part (slots.lookup field.1).join) :
    (Form.record .kept forms).Follows (.obj members) (some (.obj (present slots ++ extra))) := by
  have kept := kept_others names settled
  have found : (Json.obj members).record? names = some _ := known?_eq settled.distinct
  rw [openRecord?_obj names settled] at opened
  cases opened
  apply follows_record found named distinct
  · intro field member
    have known : field.1 ∈ names := named ▸ List.mem_map_of_mem member
    have missing : Members.get? (others names members) field.1 = none :=
      Members.get?_eq_none fun among => kept.apart field.1 among known
    constructor
    · intro part here
      rw [Option.bind_some, step?, Members.get?_append, get?_present (slotted ▸ distinct),
        missing, Option.or_none]
      exact each field member part here
    · rintro part ⟨items, ⟨⟩⟩
  · intro name part unknown here
    have kept : Members.get? members name = some part := here
    rw [Option.bind_some, step?, get?_written_other (slotted ▸ unknown),
      get?_others members unknown, kept]
    exact follows_kept part
  · exact fun _ => rfl

/--
A form is right about a record that ignores other members if it is right about the
fields, and nothing but the fields is written.
-/
theorem follows_closed {names : List String} {forms : List (String × Form)} {value : Json}
    {fields : Members Json} {slots : List (String × Option Json)} {written : Option Json}
    (found : value.record? names = some fields) (named : forms.map Prod.fst = names)
    (slotted : slots.map Prod.fst = names) (distinct : names.Nodup)
    (only : written = none ∨ written = some (.obj (present slots)))
    (each : ∀ field ∈ forms, FieldFollows value fields written field) :
    (Form.record .ignored forms).Follows value written := by
  apply follows_record found named distinct each
  · intro name part unknown _
    have gone : (written.bind fun value => value.step? (.member name)) = none := by
      rcases only with rfl | rfl
      · rfl
      · rw [← slotted] at unknown
        have other : Members.get? (present slots ++ []) name = none := get?_written_other unknown
        rwa [List.append_nil] at other
    rw [gone]
    exact follows_ignored part
  · intro index
    rcases only with rfl | rfl <;> rfl

/-! ## Forms that lose nothing -/

theorem lossless_plain : plain.Lossless := by
  intro place
  simp [inside_plain]

theorem lossless_kept : kept.Lossless := by
  intro place
  simp [inside_kept]

theorem lossless_absent : absent.Lossless := by
  intro place
  simp [inside_absent]

theorem lossless_record {others : Form} {forms : List (String × Form)} (other : others.Lossless)
    (each : ∀ field ∈ forms, field.2.Lossless) : (Form.record others forms).Lossless := by
  intro place
  cases place with
  | nil => simp [inside]
  | cons step rest =>
      cases step with
      | member name =>
          rw [inside, Form.step]
          cases field : forms.lookup name with
          | none => exact other rest
          | some form => exact each _ (mem_of_lookup field) rest
      | item index =>
          rw [inside, Form.step]
          cases listed : forms[index]? with
          | none => exact lossless_absent rest
          | some field => exact each field (List.mem_of_getElem? listed) rest

end Form

section

variable {α : Type} {read : Json → Option α} {fields : Members Json} {name : String}

theorem ReadsPlain.field? (plain : ReadsPlain read) {result : α}
    (found : fields.field? name read = some result) :
    ∀ part, fields.get? name = some part → part.IsPlain := by
  intro part here
  rw [Members.field?, here] at found
  exact plain part result found

theorem ReadsPlain.fieldOr? (plain : ReadsPlain read) {default result : α}
    (found : fields.fieldOr? name read default = some result) :
    ∀ part, fields.get? name = some part → part.IsPlain :=
  fun part here => plain part result (Members.read_of_fieldOr? found here)

end

end Json

end KeyLayers
