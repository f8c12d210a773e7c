import KeyLayers.Json.Record
import KeyLayers.Json.Shape
import KeyLayers.Proofs.Json.Reading

/-!
# Records that are written and read back

A record is written with the fields that are not left out, and then its other
members.  Reading looks the fields up by name and keeps the others, so that the
two agree as soon as no name occurs twice.
-/

namespace KeyLayers

namespace Members

variable {α : Type}

theorem names_append (front rest : Members α) :
    names (front ++ rest) = names front ++ names rest :=
  List.map_append

theorem mem_of_get? {members : Members α} {name : String} {value : α}
    (found : members.get? name = some value) : (name, value) ∈ members := by
  simp only [get?, Option.map_eq_some_iff] at found
  obtain ⟨⟨other, same⟩, hit, rfl⟩ := found
  have named := List.find?_some hit
  simp only [beq_iff_eq] at named
  subst named
  exact List.mem_of_find?_eq_some hit

theorem get?_eq_none_iff {members : Members α} {name : String} :
    members.get? name = none ↔ name ∉ members.names := by
  simp only [get?, Option.map_eq_none_iff, List.find?_eq_none, beq_iff_eq]
  constructor
  · intro missing known
    rcases List.mem_map.1 known with ⟨entry, among, same⟩
    exact missing entry among same
  · rintro missing entry member rfl
    exact missing (List.mem_map_of_mem member)

theorem get?_eq_none {members : Members α} {name : String}
    (missing : name ∉ members.names) : members.get? name = none :=
  get?_eq_none_iff.2 missing

theorem get?_cons_self (name : String) (value : α) (rest : Members α) :
    get? ((name, value) :: rest) name = some value := by
  simp [get?]

theorem get?_cons_other {name other : String} {value : α} {rest : Members α}
    (differ : other ≠ name) : get? ((name, value) :: rest) other = rest.get? other := by
  simp [get?, Ne.symm differ]

theorem get?_append (front rest : Members α) (name : String) :
    get? (front ++ rest) name = (front.get? name).or (rest.get? name) := by
  simp [get?, List.find?_append, Option.map_or]

theorem get?_of_mem {members : Members α} (distinct : members.names.Nodup) {name : String}
    {value : α} (member : (name, value) ∈ members) : members.get? name = some value := by
  induction members with
  | nil => cases member
  | cons entry rest ih =>
      rw [names, List.map_cons, List.nodup_cons] at distinct
      rcases List.mem_cons.1 member with rfl | later
      · exact get?_cons_self name value rest
      · have named : name ∈ rest.map Prod.fst := List.mem_map.2 ⟨_, later, rfl⟩
        rw [get?_cons_other (ne_of_mem_of_not_mem named distinct.1)]
        exact ih distinct.2 later

section

variable {β : Type} {members : Members α} {name : String} {read : α → Option β}
  {default result : β}

theorem fieldOr?_eq_some (found : members.fieldOr? name read default = some result) :
    (∃ field, members.get? name = some field ∧ read field = some result) ∨ result = default := by
  unfold fieldOr? at found
  split at found
  next field here => exact .inl ⟨field, here, found⟩
  next => exact .inr (Option.some.inj found).symm

theorem read_of_fieldOr? {field : α} (found : members.fieldOr? name read default = some result)
    (here : members.get? name = some field) : read field = some result := by
  rwa [fieldOr?, here] at found

theorem of_field? (found : members.field? name read = some result) :
    ∃ field, (name, field) ∈ members ∧ read field = some result := by
  rcases Option.bind_eq_some_iff.1 found with ⟨field, here, reads⟩
  exact ⟨field, mem_of_get? here, reads⟩

theorem of_fieldOr? (found : members.fieldOr? name read default = some result) :
    (∃ field, (name, field) ∈ members ∧ read field = some result) ∨ result = default := by
  rcases fieldOr?_eq_some found with ⟨field, here, reads⟩ | absent
  · exact .inl ⟨field, mem_of_get? here, reads⟩
  · exact .inr absent

end

theorem put_of_not_mem {members : Members α} {name : String} (fresh : name ∉ members.names)
    (value : α) : members.put name value = members ++ [(name, value)] := by
  induction members with
  | nil => rfl
  | cons entry rest ih =>
      simp only [names, List.map_cons, List.mem_cons, not_or] at fresh
      rw [put, if_neg (Ne.symm fresh.1), ih fresh.2]
      rfl

/-- Assignments to different names leave themselves behind. -/
theorem ofList_of_nodup {assignments : List (String × α)}
    (distinct : (names assignments).Nodup) : ofList assignments = assignments := by
  suffices more : ∀ front : Members α, (names (front ++ assignments)).Nodup →
      assignments.foldl (fun members entry => members.put entry.1 entry.2) front =
        front ++ assignments from
    more [] distinct
  clear distinct
  induction assignments with
  | nil => simp
  | cons entry rest ih =>
      intro front distinct
      have fresh : entry.1 ∉ front.names := by
        rw [names_append, List.nodup_append] at distinct
        intro member
        exact distinct.2.2 _ member _ List.mem_cons_self rfl
      rw [List.foldl_cons, put_of_not_mem fresh, ih]
      · simp
      · simpa using distinct

/-! ## Members that all have a property -/

section

variable {holds : α → Prop}

/-- Whether all names are distinct and all values have a property. -/
structure Each (holds : α → Prop) (members : Members α) : Prop where
  distinct : members.names.Nodup
  each : ∀ member ∈ members, holds member.2

theorem each_iff {members : Members α} :
    Each holds members ↔ members.names.Nodup ∧ ∀ member ∈ members, holds member.2 :=
  ⟨fun each => ⟨each.distinct, each.each⟩, fun ⟨distinct, each⟩ => ⟨distinct, each⟩⟩

theorem each_nil : Each holds [] :=
  ⟨List.nodup_nil, by simp⟩

theorem mem_put {members : Members α} {name : String} {value : α} {member : String × α}
    (among : member ∈ members.put name value) : member = (name, value) ∨ member ∈ members := by
  induction members with
  | nil => exact .inl (List.mem_singleton.1 among)
  | cons head rest ih =>
      rw [put] at among
      split at among
      next =>
        rcases List.mem_cons.1 among with here | later
        · exact .inl here
        · exact .inr (List.mem_cons_of_mem _ later)
      next =>
        rcases List.mem_cons.1 among with here | later
        · exact .inr (here ▸ List.mem_cons_self)
        · rcases ih later with new | old
          · exact .inl new
          · exact .inr (List.mem_cons_of_mem _ old)

theorem Each.put {members : Members α} {value : α} (each : Each holds members) (name : String)
    (held : holds value) : Each holds (members.put name value) where
  distinct := by
    rw [names_put]
    split
    next => exact each.distinct
    next fresh =>
      rw [List.nodup_append]
      refine ⟨each.distinct, by simp, ?_⟩
      intro other known name' new same
      cases List.mem_singleton.1 new
      exact fresh (same ▸ known)
  each member among := by
    rcases mem_put among with rfl | old
    · exact held
    · exact each.each member old

/-- A name that is not there yet is added at the end. -/
theorem append_eq_put {members : Members α} {name : String} (fresh : members.get? name = none)
    (value : α) : members ++ [(name, value)] = members.put name value :=
  (put_of_not_mem (get?_eq_none_iff.1 fresh) value).symm

theorem Each.append {members : Members α} {name : String} {value : α}
    (each : Each holds members) (fresh : members.get? name = none) (held : holds value) :
    Each holds (members ++ [(name, value)]) := by
  rw [append_eq_put fresh]
  exact each.put name held

theorem Each.get? {members : Members α} {name : String} {value : α} (each : Each holds members)
    (found : members.get? name = some value) : holds value :=
  each.each _ (mem_of_get? found)

theorem Each.mono {members : Members α} {weaker : α → Prop} (each : Each holds members)
    (implies : ∀ value, holds value → weaker value) : Each weaker members where
  distinct := each.distinct
  each member among := implies _ (each.each member among)

theorem Each.sublist {members part : Members α} (each : Each holds members)
    (sublist : part.Sublist members) : Each holds part where
  distinct := each.distinct.sublist (sublist.map _)
  each member among := each.each member (sublist.subset among)

end

end Members

namespace Json

/-! ## Settled members -/

/-- Whether a value is taken over as it is. -/
def Settled (value : Json) : Prop :=
  value.settle = value

/-- Whether some members make up an object that is taken over as it is. -/
abbrev SettledMembers (members : Members Json) : Prop :=
  Members.Each Settled members

theorem Settled.settle_eq {value : Json} (settled : value.Settled) : value.settle = value :=
  settled

theorem settled_arr {items : List Json} (settled : ∀ item ∈ items, item.Settled) :
    Settled (.arr items) := by
  have same : settleItems items = items := by
    induction items with
    | nil => rfl
    | cons item items more =>
        rw [settleItems, settled item List.mem_cons_self,
          more fun other member => settled other (List.mem_cons_of_mem _ member)]
  rw [Settled, settle, same]

theorem settleObject_eq {members : List (String × Json)} (settled : SettledMembers members) :
    settleObject members = members := by
  have same : settleMembers members = members := by
    rcases settled with ⟨-, settled⟩
    induction members with
    | nil => rfl
    | cons entry members more =>
        rw [settleMembers, settled entry List.mem_cons_self,
          more fun other member => settled other (List.mem_cons_of_mem _ member)]
  rw [settleObject, same, Members.ofList_of_nodup settled.distinct]

theorem settled_obj {members : List (String × Json)} (settled : SettledMembers members) :
    Settled (.obj members) :=
  congrArg Json.obj (settleObject_eq settled)

/-! ## Printable members -/

/-- Whether some members make up a printable object. -/
abbrev PrintableMembers (members : Members Json) : Prop :=
  Members.Each Printable members

theorem printable_obj_iff {members : List (String × Json)} :
    Printable (.obj members) ↔ PrintableMembers members := by
  constructor
  · rintro (_ | _ | _ | _ | _ | _ | ⟨distinct, printable⟩)
    exact ⟨distinct, printable⟩
  · intro ⟨distinct, printable⟩
    exact .obj distinct printable

theorem printable_arr_iff {items : List Json} :
    Printable (.arr items) ↔ ∀ item ∈ items, item.Printable := by
  constructor
  · rintro (_ | _ | _ | _ | _ | printable | _)
    exact printable
  · exact .arr

/-- A printable value is settled. -/
theorem settle_eq {value : Json} (printable : value.Printable) : value.settle = value := by
  induction printable with
  | null | bool | int | str => rfl
  | @float number reads =>
      cases number with
      | finite => rfl
      | infinite => cases ofText?_null.symm.trans reads
      | nan => cases ofText?_null.symm.trans reads
  | arr _ settled => exact settled_arr settled
  | obj distinct _ settled => exact settled_obj ⟨distinct, settled⟩

theorem settledMembers_of_printable {members : List (String × Json)}
    (printable : PrintableMembers members) : SettledMembers members :=
  printable.mono fun _ => settle_eq

/-! ## Reading a record -/

theorem known?_eq {names : List String} {members : List (String × Json)}
    (distinct : (Members.names members).Nodup) :
    known? names members = some (members.filter fun member => names.contains member.1) := by
  rw [known?, if_pos]
  exact distinct.sublist (List.filter_sublist.map _)

theorem get?_filter (members : List (String × Json)) (keep : String → Bool) {name : String}
    (kept : keep name = true) :
    Members.get? (members.filter fun member => keep member.1) name =
      Members.get? members name := by
  simp only [Members.get?, List.find?_filter]
  congr 2
  funext member
  by_cases same : member.1 = name
  · simp [same, kept]
  · simp [same]

/-- Looking up a field that a record has among all members. -/
theorem get?_known {names : List String} (members : List (String × Json)) {name : String}
    (known : name ∈ names) :
    Members.get? (members.filter fun member => names.contains member.1) name =
      Members.get? members name :=
  get?_filter members names.contains (List.contains_iff_mem.2 known)

/-- Looking up another member among those that a record has no field for. -/
theorem get?_others {names : List String} (members : List (String × Json)) {name : String}
    (unknown : name ∉ names) :
    Members.get? (others names members) name = Members.get? members name :=
  get?_filter members (!names.contains ·) (by simpa using unknown)

/-- The settled members that a record has no field for. -/
structure Kept (names : List String) (extra : List (String × Json)) : Prop
    extends SettledMembers extra where
  apart : ∀ name ∈ Members.names extra, name ∉ names

/-- The members that a record has no field for. -/
structure Extra (names : List String) (extra : List (String × Json)) : Prop
    extends PrintableMembers extra where
  apart : ∀ name ∈ Members.names extra, name ∉ names

theorem Extra.kept {names : List String} {extra : List (String × Json)}
    (others : Extra names extra) : Kept names extra :=
  ⟨settledMembers_of_printable others.toEach, others.apart⟩

theorem extra_nil (names : List String) : Extra names [] :=
  ⟨⟨List.nodup_nil, by simp⟩, by simp [Members.names]⟩

theorem apart_others (names : List String) (members : List (String × Json)) :
    ∀ name ∈ Members.names (others names members), name ∉ names := by
  intro name member
  simp only [Members.names, others, List.mem_map, List.mem_filter] at member
  obtain ⟨entry, ⟨-, unknown⟩, rfl⟩ := member
  simpa using unknown

theorem kept_others {members : List (String × Json)} (names : List String)
    (settled : SettledMembers members) : Kept names (others names members) :=
  ⟨settled.sublist List.filter_sublist, apart_others names members⟩

theorem extra_others {members : List (String × Json)} (names : List String)
    (printable : PrintableMembers members) : Extra names (others names members) :=
  ⟨printable.sublist List.filter_sublist, apart_others names members⟩

/-- An open record keeps the members that it has no field for as they are. -/
theorem openRecord?_obj {members : List (String × Json)} (names : List String)
    (settled : SettledMembers members) :
    (Json.obj members).openRecord? names =
      some (members.filter (fun member => names.contains member.1), others names members) := by
  rw [openRecord?, known?_eq settled.distinct, settleObject_eq (kept_others names settled).toEach]
  rfl

theorem mem_of_mapM {α β : Type} {read : α → Option β} {items : List α} {values : List β}
    (found : items.mapM read = some values) {value : β} (member : value ∈ values) :
    ∃ item ∈ items, read item = some value := by
  induction items generalizing values with
  | nil =>
      cases found
      cases member
  | cons item items ih =>
      simp only [List.mapM_cons, Option.bind_eq_bind, Option.bind_eq_some_iff, Option.pure_def,
        Option.some.injEq] at found
      obtain ⟨first, head, others, tail, rfl⟩ := found
      cases member with
      | head => exact ⟨item, List.mem_cons_self, head⟩
      | tail _ member =>
          obtain ⟨other, among, reads⟩ := ih tail member
          exact ⟨other, List.mem_cons_of_mem _ among, reads⟩

/-- An item is read as the value at its index. -/
theorem getElem?_of_mapM {α β : Type} {read : α → Option β} {items : List α} {values : List β}
    (found : items.mapM read = some values) {index : Nat} {item : α}
    (listed : items[index]? = some item) :
    ∃ value, values[index]? = some value ∧ read item = some value := by
  induction items generalizing values index with
  | nil => cases listed
  | cons head items ih =>
      simp only [List.mapM_cons, Option.bind_eq_bind, Option.bind_eq_some_iff, Option.pure_def,
        Option.some.injEq] at found
      obtain ⟨first, reads, others, tail, rfl⟩ := found
      cases index with
      | zero =>
          cases listed
          exact ⟨first, rfl, reads⟩
      | succ index => exact ih tail listed

theorem signed_of_int? {value : Json} {number : Int} (found : value.int? = some number) :
    Word.isSigned number = true := by
  cases value with
  | int value =>
      simp only [int?, Option.ite_none_right_eq_some, Option.some.injEq] at found
      obtain ⟨fits, rfl⟩ := found
      exact fits
  | _ => simp [int?] at found

theorem of_optional? {α : Type} {read : Json → Option α} {value : Json} {part : α}
    (found : optional? read value = some (some part)) : read value = some part := by
  unfold optional? at found
  split at found
  next => cases found
  next =>
    obtain ⟨other, reads, same⟩ := Option.map_eq_some_iff.1 found
    cases same
    exact reads

theorem eq_null_of_optional? {α : Type} {read : Json → Option α} {value : Json}
    (found : optional? read value = some none) : value = .null := by
  unfold optional? at found
  split at found
  next => rfl
  next =>
    obtain ⟨other, -, same⟩ := Option.map_eq_some_iff.1 found
    cases same

/-! ## Writing a record -/

/-- The fields of a record that are not left out. -/
def present (slots : List (String × Option Json)) : Members Json :=
  slots.filterMap fun slot => slot.2.map (slot.1, ·)

@[simp]
theorem present_nil : present [] = [] := rfl

@[simp]
theorem present_cons (name : String) (field : Option Json)
    (slots : List (String × Option Json)) :
    present ((name, field) :: slots) =
      (field.map fun value => (name, value)).toList ++ present slots := by
  cases field <;> rfl

/-- The field of a list that is left out when it is empty. -/
def listField {α : Type} (write : α → Json) (values : List α) : Option Json :=
  if values.isEmpty then none else some (.arr (values.map write))

theorem names_present (slots : List (String × Option Json)) :
    (Members.names (present slots)).Sublist (slots.map Prod.fst) := by
  induction slots with
  | nil => exact List.Sublist.refl []
  | cons slot slots ih =>
      obtain ⟨name, field⟩ := slot
      cases field with
      | none => exact ih.trans (List.sublist_cons_self ..)
      | some value => exact ih.cons_cons name

theorem mem_present {slots : List (String × Option Json)} {name : String} {value : Json} :
    (name, value) ∈ present slots ↔ (name, some value) ∈ slots := by
  simp only [present, List.mem_filterMap, Option.map_eq_some_iff, Prod.mk.injEq]
  constructor
  · rintro ⟨⟨_, _⟩, member, _, rfl, rfl, rfl⟩
    exact member
  · intro member
    exact ⟨_, member, value, rfl, rfl, rfl⟩

/-- The field of a slot is found under its name. -/
theorem get?_present {slots : List (String × Option Json)}
    (distinct : (slots.map Prod.fst).Nodup) (name : String) :
    Members.get? (present slots) name = (slots.lookup name).join := by
  induction slots with
  | nil => rfl
  | cons slot slots ih =>
      obtain ⟨other, field⟩ := slot
      rw [List.map_cons, List.nodup_cons] at distinct
      by_cases same : name = other
      · subst same
        have missing : name ∉ Members.names (present slots) :=
          fun member => distinct.1 ((names_present slots).subset member)
        rw [present_cons, Members.get?_append, Members.get?_eq_none missing]
        cases field with
        | none => simp
        | some value => simp [Members.get?]
      · have skipped : Members.get? (field.map fun value => (other, value)).toList name = none := by
          cases field with
          | none => rfl
          | some value => simp [Members.get?, Ne.symm same]
        have different : (name == other) = false := beq_eq_false_iff_ne.2 same
        rw [present_cons, Members.get?_append, skipped, ih distinct.2, List.lookup_cons, different]
        rfl

section

variable {slots : List (String × Option Json)} {extra : Members Json} {holds : Json → Prop}

/-- The members of a record have a property if its fields and its other members have it. -/
theorem each_written (distinct : (slots.map Prod.fst).Nodup)
    (others : Members.Each holds extra)
    (apart : ∀ name ∈ Members.names extra, name ∉ slots.map Prod.fst)
    (values : ∀ slot ∈ slots, ∀ value ∈ slot.2, holds value) :
    Members.Each holds (present slots ++ extra) where
  distinct := by
    rw [Members.names_append, List.nodup_append]
    refine ⟨distinct.sublist (names_present slots), others.distinct, ?_⟩
    rintro name known _ member rfl
    exact apart name member ((names_present slots).subset known)
  each := by
    intro member among
    rcases List.mem_append.1 among with field | other
    · exact values _ (mem_present.1 field) member.2 rfl
    · exact others.each member other

theorem printable_written (distinct : (slots.map Prod.fst).Nodup)
    (others : Extra (slots.map Prod.fst) extra)
    (values : ∀ slot ∈ slots, ∀ value ∈ slot.2, Printable value) :
    Printable (.obj (present slots ++ extra)) :=
  printable_obj_iff.2 (each_written distinct others.toEach others.apart values)

end

theorem printable_present {slots : List (String × Option Json)}
    (distinct : (slots.map Prod.fst).Nodup)
    (values : ∀ slot ∈ slots, ∀ value ∈ slot.2, Printable value) :
    Printable (.obj (present slots)) := by
  have written := printable_written distinct (extra_nil _) values
  rwa [List.append_nil] at written

section

variable {slots : List (String × Option Json)} {extra : Members Json}

theorem filter_known (others : Kept (slots.map Prod.fst) extra) :
    (present slots ++ extra).filter (fun member => (slots.map Prod.fst).contains member.1) =
      present slots := by
  rw [List.filter_append, List.filter_eq_self.2, List.filter_eq_nil_iff.2, List.append_nil]
  · intro member among known
    exact others.apart member.1 (List.mem_map_of_mem among) (by simpa using known)
  · intro member among
    exact List.contains_iff_mem.2 ((names_present slots).subset (List.mem_map_of_mem among))

theorem filter_others (others : Kept (slots.map Prod.fst) extra) :
    Json.others (slots.map Prod.fst) (present slots ++ extra) = extra := by
  rw [Json.others, List.filter_append, List.filter_eq_nil_iff.2, List.filter_eq_self.2,
    List.nil_append]
  · intro member among
    simpa using others.apart member.1 (List.mem_map_of_mem among)
  · intro member among
    simpa using (names_present slots).subset (List.mem_map_of_mem among)

theorem known?_written (distinct : (slots.map Prod.fst).Nodup)
    (others : Kept (slots.map Prod.fst) extra) :
    known? (slots.map Prod.fst) (present slots ++ extra) = some (present slots) := by
  rw [known?, filter_known others, if_pos (distinct.sublist (names_present slots))]

theorem get?_written_other {name : String} (other : name ∉ slots.map Prod.fst) :
    Members.get? (present slots ++ extra) name = extra.get? name := by
  have missing : name ∉ Members.names (present slots) := fun member =>
    other ((names_present slots).subset member)
  rw [Members.get?_append, Members.get?_eq_none missing, Option.none_or]

/-- An open record is read as it was written. -/
theorem openRecord?_written (distinct : (slots.map Prod.fst).Nodup)
    (others : Kept (slots.map Prod.fst) extra) :
    (Json.obj (present slots ++ extra)).openRecord? (slots.map Prod.fst) =
      some (present slots, extra) := by
  rw [openRecord?, known?_written distinct others, filter_others others,
    settleObject_eq others.toEach, Option.map_some]

/-- A record without other members is read as it was written. -/
theorem record?_written (distinct : (slots.map Prod.fst).Nodup) :
    (Json.obj (present slots)).record? (slots.map Prod.fst) = some (present slots) := by
  have known := known?_written distinct (extra_nil _).kept
  rwa [List.append_nil] at known

theorem closedRecord?_written (distinct : (slots.map Prod.fst).Nodup) :
    (Json.obj (present slots)).closedRecord? (slots.map Prod.fst) = some (present slots) := by
  have alone := filter_others (extra_nil (slots.map Prod.fst)).kept
  rw [List.append_nil] at alone
  rw [closedRecord?, alone]
  exact record?_written distinct

end

/-! ## Reading back what has been written -/

/-- Whether a value is written as a printable value, from which it is read back. -/
structure Faithful {α : Type} (read : Json → Option α) (write : α → Json) (value : α) :
    Prop where
  printable : (write value).Printable
  reads : read (write value) = some value

section

variable {α : Type} {read : Json → Option α} {write : α → Json}

theorem faithful_iff {value : α} :
    Faithful read write value ↔ (write value).Printable ∧ read (write value) = some value :=
  ⟨fun faithful => ⟨faithful.printable, faithful.reads⟩, fun ⟨printable, reads⟩ =>
    ⟨printable, reads⟩⟩

theorem faithful_text (text : String) : Faithful text? .str text :=
  ⟨.str text, rfl⟩

theorem faithful_bool (value : Bool) : Faithful bool? .bool value :=
  ⟨.bool value, rfl⟩

theorem faithful_int {value : Int} (fits : Word.isSigned value = true) :
    Faithful int? .int value :=
  ⟨.int (by simp [fits]), by simp [int?, fits]⟩

theorem printable_list {values : List α} (printable : ∀ value ∈ values, (write value).Printable) :
    Printable (.arr (values.map write)) := by
  refine .arr ?_
  rwa [List.forall_mem_map]

/-- A list is read item by item from what is written for it. -/
theorem list?_written {values : List α} (again : α → α)
    (reads : ∀ value ∈ values, read (write value) = some (again value)) :
    list? read (.arr (values.map write)) = some (values.map again) := by
  show (values.map write).mapM read = some (values.map again)
  induction values with
  | nil => rfl
  | cons value values ih =>
      rw [List.map_cons, List.mapM_cons, reads value List.mem_cons_self,
        ih fun other member => reads other (List.mem_cons_of_mem _ member)]
      rfl

theorem faithful_list {values : List α} (faithful : ∀ value ∈ values, Faithful read write value) :
    Faithful (list? read) (fun values => .arr (values.map write)) values where
  printable := printable_list fun value member => (faithful value member).printable
  reads := by
    simpa using list?_written id fun value member => (faithful value member).reads

theorem optional?_some {value : α} (faithful : Faithful read write value)
    (some : write value ≠ .null) :
    optional? read (write value) = Option.some (Option.some value) := by
  unfold optional?
  split
  next null => exact absurd null some
  next => rw [faithful.reads, Option.map_some]

theorem printable_some {value : Json} (printable : value.Printable) :
    ∀ field ∈ some value, Printable field := by
  rintro field ⟨⟩
  exact printable

theorem printable_option {value : Option α} (faithful : ∀ part ∈ value, Faithful read write part) :
    ∀ field ∈ value.map write, Printable field := by
  intro field member
  obtain ⟨part, here, rfl⟩ := Option.map_eq_some_iff.1 member
  exact (faithful part here).printable

theorem printable_listField {values : List α}
    (printable : ∀ value ∈ values, (write value).Printable) :
    ∀ field ∈ listField write values, Printable field := by
  intro field member
  unfold listField at member
  split at member
  next => cases member
  next =>
    cases member
    exact printable_list printable

variable {slots : List (String × Option Json)} (distinct : (slots.map Prod.fst).Nodup)

include distinct

theorem field?_present {name : String} {value : Json}
    (here : slots.lookup name = some (some value)) :
    Members.field? (present slots) name read = read value := by
  rw [Members.field?, get?_present distinct, here]
  rfl

theorem fieldOr?_present {name : String} {value : Json} {default : α}
    (here : slots.lookup name = some (some value)) :
    Members.fieldOr? (present slots) name read default = read value := by
  rw [Members.fieldOr?, get?_present distinct, here]
  rfl

theorem fieldOr?_absent {name : String} {default : α} (here : slots.lookup name = some none) :
    Members.fieldOr? (present slots) name read default = some default := by
  rw [Members.fieldOr?, get?_present distinct, here]
  rfl

/-- A list is read whether it was empty and left out or not. -/
theorem fieldOr?_listField {name : String} {values : List α} (again : α → α)
    (here : slots.lookup name = some (listField write values))
    (reads : ∀ value ∈ values, read (write value) = some (again value)) :
    Members.fieldOr? (present slots) name (list? read) [] = some (values.map again) := by
  cases values with
  | nil => exact fieldOr?_absent distinct here
  | cons value values =>
      rw [fieldOr?_present distinct here]
      exact list?_written again reads

theorem fieldOr?_list {name : String} {values : List α}
    (here : slots.lookup name = some (listField write values))
    (faithful : ∀ value ∈ values, Faithful read write value) :
    Members.fieldOr? (present slots) name (list? read) [] = some values := by
  simpa using fieldOr?_listField distinct id here fun value member =>
    (faithful value member).reads

/-- An optional value is read back whether it was missing and left out or not. -/
theorem fieldOr?_option {name : String} {value : Option α}
    (here : slots.lookup name = some (value.map write))
    (faithful : ∀ part ∈ value, Faithful read write part)
    (visible : ∀ value, write value ≠ .null) :
    Members.fieldOr? (present slots) name (optional? read) none = some value := by
  cases value with
  | none => exact fieldOr?_absent distinct here
  | some value =>
      rw [fieldOr?_present distinct here]
      exact optional?_some (faithful value rfl) (visible value)

end

/-! ## What is looked at -/

/-- Whether a shape looks at everything that is written for a value. -/
def Fits (shape : Shape) (value : Json) : Prop :=
  (source value).prune shape = source value

theorem fits_whole (value : Json) : Fits .whole value := by
  unfold Fits
  cases value.source <;> rfl

theorem fits_list {shape : Shape} {items : List Json} (fits : ∀ item ∈ items, Fits shape item) :
    Fits (.list shape) (.arr items) := by
  have same : Source.pruneItems shape (sourceItems items) = sourceItems items := by
    induction items with
    | nil => rfl
    | cons item items ih =>
        rw [sourceItems, Source.pruneItems, fits item List.mem_cons_self,
          ih fun other member => fits other (List.mem_cons_of_mem _ member)]
  rw [Fits, source, Source.prune, same]

theorem fits_record {keepOthers : Bool} {fields : List (String × Shape)}
    {members : List (String × Json)}
    (known : ∀ member ∈ members, keepOthers = false → (fields.lookup member.1).isSome)
    (fits : ∀ member ∈ members, ∀ shape ∈ fields.lookup member.1, Fits shape member.2) :
    Fits (.record keepOthers fields) (.obj members) := by
  have same : Source.pruneMembers keepOthers fields (sourceMembers members) =
      sourceMembers members := by
    induction members with
    | nil => rfl
    | cons entry members ih =>
        obtain ⟨name, value⟩ := entry
        rw [sourceMembers, Source.pruneMembers,
          ih (fun other member => known other (List.mem_cons_of_mem _ member))
            (fun other member => fits other (List.mem_cons_of_mem _ member))]
        have here := known (name, value) List.mem_cons_self
        have shaped := fits (name, value) List.mem_cons_self
        cases found : fields.lookup name with
        | none =>
            have kept : keepOthers = true := by
              cases keepOthers with
              | true => rfl
              | false => simpa [found] using here rfl
            simp only [Shape.field?, Option.bind_some, found, kept, Bool.true_or, if_true]
        | some shape =>
            have same : (source value).prune shape = source value := shaped shape found
            simp [Shape.field?, found, same]
  rw [Fits, source, Source.prune, same]

/-- The written fields are looked at if every slot has a shape that its field fits. -/
theorem fits_present {keepOthers : Bool} {fields : List (String × Shape)}
    {slots : List (String × Option Json)}
    (fits : ∀ slot ∈ slots, ∀ value ∈ slot.2,
      ∃ shape, fields.lookup slot.1 = some shape ∧ Fits shape value) :
    Fits (.record keepOthers fields) (.obj (present slots)) := by
  apply fits_record
  · rintro ⟨name, value⟩ member -
    obtain ⟨shape, found, -⟩ := fits _ (mem_present.1 member) value rfl
    simp [found]
  · rintro ⟨name, value⟩ member shape here
    obtain ⟨other, found, fit⟩ := fits _ (mem_present.1 member) value rfl
    cases found.symm.trans here
    exact fit

end Json

end KeyLayers
