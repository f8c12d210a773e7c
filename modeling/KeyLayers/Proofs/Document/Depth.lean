import KeyLayers.Proofs.Document.Rules

/-!
# What has been read is not nested more deeply when it is written

Every record writes its fields where it has read them or leaves them out, so
nothing moves to a deeper level (`Json.Shallow`).  The exceptions are the rules
of a profile and the profiles of a document, which are written even where the
text leaves them out; but those are few levels, whatever the text is.  A document
that has been read is therefore always written within the limit of a reader.
-/

namespace KeyLayers

namespace Json

/-! ## Written fields -/

/--
Whether what is written for the result of reading a value is not nested more
deeply than the value or than a floor.
-/
def Shallow {α : Type} (floor : Nat) (read : Json → Option α) (write : α → Json) : Prop :=
  ∀ ⦃value : Json⦄ ⦃result : α⦄, read value = some result →
    (write result).depth ≤ max value.depth floor

theorem depth_pos_of_list? {α : Type} {read : Json → Option α} {value : Json} {results : List α}
    (found : value.list? read = some results) : 0 < value.depth := by
  cases value with
  | arr items => exact Nat.succ_pos _
  | _ => cases found

theorem depth_pos_of_record? {names : List String} {value : Json} {fields : Members Json}
    (found : value.record? names = some fields) : 0 < value.depth := by
  cases value with
  | arr items => exact Nat.succ_pos _
  | obj members => exact Nat.succ_pos _
  | _ => cases found

theorem depth_pos_of_openRecord? {names : List String} {value : Json}
    {fields extra : Members Json} (found : value.openRecord? names = some (fields, extra)) :
    0 < value.depth := by
  obtain ⟨members, rfl, -⟩ := of_openRecord? found
  exact Nat.succ_pos _

theorem depth_lt_of_mem_record? {names : List String} {value : Json} {fields : Members Json}
    (found : value.record? names = some fields) :
    ∀ member ∈ fields, member.2.depth < value.depth :=
  fun _ among => (isPart_of_record? found among).depth_lt

theorem depth_lt_of_mem_openRecord? {names : List String} {value : Json}
    {fields extra : Members Json} (found : value.openRecord? names = some (fields, extra)) :
    ∀ member ∈ fields, member.2.depth < value.depth :=
  fun _ among => (isPart_of_openRecord? found among).depth_lt

theorem depth_lt_of_mem_extra {names : List String} {value : Json} {fields extra : Members Json}
    (found : value.openRecord? names = some (fields, extra)) :
    ∀ member ∈ extra, member.2.depth < value.depth := by
  intro member among
  obtain ⟨part, isPart, -, same⟩ := exists_of_mem_extra found among
  rw [same]
  exact (depth_settle_le part).trans_lt isPart.depth_lt

/-- The written fields of a record are nested within a limit if each slot is. -/
theorem depth_lt_of_mem_present {slots : List (String × Option Json)} {limit : Nat}
    (below : ∀ slot ∈ slots, ∀ field ∈ slot.2, field.depth < limit) :
    ∀ member ∈ present slots, member.2.depth < limit := by
  rintro ⟨name, value⟩ member
  exact below (name, some value) (mem_present.1 member) value rfl

theorem depth_some {value : Json} {limit : Nat} (below : value.depth < limit) :
    ∀ field ∈ some value, field.depth < limit := by
  rintro field ⟨⟩
  exact below

section

variable {α : Type} {read : Json → Option α} {write : α → Json} {floor limit : Nat}

theorem depth_flat (flat : ∀ result, (write result).depth = 0) (positive : 0 < limit)
    (result : Option α) : ∀ field ∈ result.map write, field.depth < limit := by
  intro field member
  obtain ⟨part, rfl, rfl⟩ := Option.map_eq_some_iff.1 member
  rwa [flat]

theorem shallow_of_flat (flat : ∀ result, (write result).depth = 0) : Shallow floor read write := by
  intro value result _
  rw [flat]
  exact Nat.zero_le _

theorem Shallow.arr (shallow : Shallow floor read write) (above : floor < limit) {value : Json}
    (within : value.depth ≤ limit) {results : List α}
    (found : value.list? read = some results) : (Json.arr (results.map write)).depth ≤ limit := by
  refine depth_arr_le (Nat.zero_lt_of_lt above) ?_
  rw [List.forall_mem_map]
  intro result member
  obtain ⟨item, isPart, reads⟩ := of_list? found member
  exact (shallow reads).trans_lt (max_lt (isPart.depth_lt.trans_le within) above)

theorem Shallow.list (shallow : Shallow 0 read write) :
    Shallow 0 (list? read) fun results => .arr (results.map write) := by
  intro value results found
  rw [Nat.max_zero]
  exact shallow.arr (depth_pos_of_list? found) le_rfl found

variable {fields : Members Json} {name : String}
  (below : ∀ member ∈ fields, member.2.depth < limit)

include below

theorem Shallow.field (shallow : Shallow floor read write) (above : floor < limit) {result : α}
    (found : fields.field? name read = some result) : (write result).depth < limit := by
  obtain ⟨field, here, reads⟩ := Members.of_field? found
  exact (shallow reads).trans_lt (max_lt (below _ here) above)

theorem Shallow.listField (shallow : Shallow 0 read write) {results : List α}
    (found : fields.fieldOr? name (list? read) [] = some results) :
    ∀ field ∈ listField write results, field.depth < limit := by
  intro field member
  unfold Json.listField at member
  split at member
  · cases member
  next something =>
    cases member
    rcases Members.of_fieldOr? found with ⟨field, here, reads⟩ | rfl
    · have written := shallow.list reads
      rw [Nat.max_zero] at written
      exact written.trans_lt (below _ here)
    · exact absurd rfl something

theorem Shallow.option (shallow : Shallow floor read write) (above : floor < limit)
    {result : Option α} (found : fields.fieldOr? name (optional? read) none = some result) :
    ∀ field ∈ result.map write, field.depth < limit := by
  intro field member
  obtain ⟨part, rfl, rfl⟩ := Option.map_eq_some_iff.1 member
  rcases Members.of_fieldOr? found with ⟨field, here, reads⟩ | absent
  · exact (shallow (of_optional? reads)).trans_lt (max_lt (below _ here) above)
  · cases absent

end

end Json

/-! ## Events -/

theorem Modifier.shallow : Json.Shallow 0 ofJson? toJson :=
  Json.shallow_of_flat fun _ => rfl

theorem Assignment.shallow : Json.Shallow 0 ofJson? toJson := by
  intro value assignment found
  simp only [ofJson?, Option.bind_eq_bind, Option.bind_eq_some_iff] at found
  obtain ⟨fields, opened, -⟩ := found
  have positive := Json.depth_pos_of_record? (Json.record?_of_closedRecord? opened)
  rw [Nat.max_zero, toJson_eq]
  refine Json.depth_obj_le positive (Json.depth_lt_of_mem_present ?_)
  simp only [slots, List.forall_mem_cons]
  exact ⟨Json.depth_some positive, Json.depth_some positive,
    Json.depth_flat (fun _ => rfl) positive _, by simp⟩

theorem InputSource.shallow : Json.Shallow 0 ofJson? toJson := by
  intro value source found
  simp only [ofJson?, Option.bind_eq_bind, Option.bind_eq_some_iff] at found
  obtain ⟨fields, opened, -⟩ := found
  have positive := Json.depth_pos_of_record? opened
  have flat : ∀ pattern : Option String, ∀ field ∈ pattern.map Json.str,
      field.depth < value.depth :=
    Json.depth_flat (fun _ => rfl) positive
  rw [Nat.max_zero, toJson_eq]
  refine Json.depth_obj_le positive (Json.depth_lt_of_mem_present ?_)
  simp only [slots, List.forall_mem_cons]
  exact ⟨flat _, flat _, flat _, by simp⟩

theorem KeyPress.shallow : Json.Shallow 0 ofJson? toJson := by
  intro value press found
  simp only [ofJson?, Option.bind_eq_bind, Option.bind_eq_some_iff, Option.pure_def,
    Option.some.injEq] at found
  obtain ⟨⟨fields, extra⟩, opened, key, -, modifiers, held, isLazy, -, rfl⟩ := found
  have positive := Json.depth_pos_of_openRecord? opened
  have below := Json.depth_lt_of_mem_openRecord? opened
  rw [Nat.max_zero, toJson_eq]
  refine Json.depth_obj_le positive (List.forall_mem_append.2
    ⟨Json.depth_lt_of_mem_present ?_, Json.depth_lt_of_mem_extra opened⟩)
  simp only [slots, List.forall_mem_cons]
  refine ⟨Json.depth_some positive, Modifier.shallow.listField below held, ?_, by simp⟩
  split
  · exact Json.depth_some positive
  · intro field absent
    cases absent

namespace Event

/-- An event with a field of its own. -/
theorem depth_field {name : String} {value field : Json} {fields extra : Members Json}
    (opened : value.openRecord? [name] = some (fields, extra))
    (below : field.depth < value.depth) :
    (Json.obj ((name, field) :: extra)).depth ≤ value.depth :=
  Json.depth_obj_le (Json.depth_pos_of_openRecord? opened)
    (List.forall_mem_cons.2 ⟨below, Json.depth_lt_of_mem_extra opened⟩)

theorem depth_toJson_ofJson (value : Json) : (ofJson value).toJson.depth ≤ value.depth := by
  refine ofJson_cases (motive := fun event => event.toJson.depth ≤ value.depth) value
    ?_ ?_ ?_ ?_ ?_
  · intro event found
    obtain ⟨fields, extra, assignment, opened, reads, rfl⟩ := ofField?_eq_some found
    refine depth_field opened ?_
    exact Assignment.shallow.field
      (Json.depth_lt_of_mem_openRecord? opened) (Json.depth_pos_of_openRecord? opened) reads
  · intro event found
    obtain ⟨fields, extra, command, opened, -, rfl⟩ := ofField?_eq_some found
    exact depth_field opened (Json.depth_pos_of_openRecord? opened)
  · intro event found
    obtain ⟨fields, extra, source, opened, reads, rfl⟩ := ofField?_eq_some found
    refine depth_field opened ?_
    exact InputSource.shallow.field
      (Json.depth_lt_of_mem_openRecord? opened) (Json.depth_pos_of_openRecord? opened) reads
  · intro press found
    have written := KeyPress.shallow found
    rwa [Nat.max_zero] at written
  · exact Json.depth_settle_le value

theorem shallow : Json.Shallow 0 (fun value => some (ofJson value)) toJson := by
  intro value event found
  cases found
  simpa using depth_toJson_ofJson value

end Event

/-! ## Manipulators -/

theorem Condition.shallow_ofTagged? {tag : String} {value : Json} {condition : Condition}
    (found : ofTagged? tag value = some condition) : condition.toJson.depth ≤ value.depth := by
  unfold ofTagged? at found
  simp only [Option.bind_eq_bind, Option.pure_def] at found
  split at found
  case h_1 | h_2 =>
    simp only [Option.bind_eq_some_iff, Option.some.injEq] at found
    obtain ⟨fields, opened, name, -, number, -, rfl⟩ := found
    have positive := Json.depth_pos_of_record? opened
    rw [toJson_eq]
    refine Json.depth_obj_le positive (Json.depth_lt_of_mem_present ?_)
    simp only [slots, List.forall_mem_cons]
    exact ⟨Json.depth_some positive, Json.depth_some positive, Json.depth_some positive, by simp⟩
  case h_3 | h_4 =>
    simp only [Option.bind_eq_some_iff, Option.some.injEq] at found
    obtain ⟨fields, opened, patterns, list, rfl⟩ := found
    have positive := Json.depth_pos_of_record? opened
    have texts : Json.Shallow 0 Json.text? Json.str := Json.shallow_of_flat fun _ => rfl
    rw [toJson_eq]
    refine Json.depth_obj_le positive (Json.depth_lt_of_mem_present ?_)
    simp only [slots, List.forall_mem_cons]
    exact ⟨Json.depth_some positive, Json.depth_some (texts.list.field
      (Json.depth_lt_of_mem_record? opened) positive list), by simp⟩
  case h_5 => cases found

theorem Condition.shallow : Json.Shallow 0 ofJson? toJson := by
  intro value condition found
  rw [Nat.max_zero]
  unfold ofJson? at found
  split at found
  next members =>
    simp only [Option.bind_eq_bind, Option.bind_eq_some_iff] at found
    obtain ⟨fields, -, tag, -, tagged⟩ := found
    refine (shallow_ofTagged? tagged).trans (Json.depth_obj_le (Nat.succ_pos _) ?_)
    intro member among
    have isPart : member.2.IsPart (.obj members) := ⟨_, (List.mem_filter.1 among).1⟩
    exact isPart.depth_lt
  next tag fields =>
    refine (shallow_ofTagged? found).trans (Json.depth_arr_le (Nat.succ_pos _) ?_)
    intro item member
    have isPart : item.IsPart (.arr (.str tag :: fields)) := List.mem_cons_of_mem _ member
    exact isPart.depth_lt
  next => cases found

theorem FromModifiers.shallow : Json.Shallow 0 ofJson? toJson := by
  intro value modifiers found
  simp only [ofJson?, Option.bind_eq_bind, Option.bind_eq_some_iff, Option.pure_def,
    Option.some.injEq] at found
  obtain ⟨fields, opened, mandatory, needed, optional, allowed, rfl⟩ := found
  have below := Json.depth_lt_of_mem_record? opened
  rw [Nat.max_zero, toJson_eq]
  refine Json.depth_obj_le (Json.depth_pos_of_record? opened) (Json.depth_lt_of_mem_present ?_)
  simp only [slots, List.forall_mem_cons]
  exact ⟨Modifier.shallow.listField below needed, Modifier.shallow.listField below allowed,
    by simp⟩

theorem FromEvent.shallow : Json.Shallow 0 ofJson? toJson := by
  intro value input found
  simp only [ofJson?, Option.bind_eq_bind, Option.bind_eq_some_iff, Option.pure_def,
    Option.some.injEq] at found
  obtain ⟨fields, opened, key, -, modifiers, held, rfl⟩ := found
  have positive := Json.depth_pos_of_record? opened
  have below := Json.depth_lt_of_mem_record? opened
  rw [Nat.max_zero, toJson_eq]
  refine Json.depth_obj_le positive (Json.depth_lt_of_mem_present ?_)
  simp only [slots, List.forall_mem_cons]
  exact ⟨Json.depth_some positive, FromModifiers.shallow.option below positive held, by simp⟩

theorem Manipulator.shallow : Json.Shallow 0 ofJson? toJson := by
  intro value manipulator found
  simp only [ofJson?, Option.bind_eq_bind, Option.bind_eq_some_iff, Option.pure_def,
    Option.some.injEq] at found
  obtain ⟨⟨fields, extra⟩, opened, -, -, description, -, input, from_, onPress, pressed, ifAlone,
    alone, onRelease, released, conditions, gates, rfl⟩ := found
  have positive := Json.depth_pos_of_openRecord? opened
  have below := Json.depth_lt_of_mem_openRecord? opened
  rw [Nat.max_zero, toJson_eq]
  refine Json.depth_obj_le positive (List.forall_mem_append.2
    ⟨Json.depth_lt_of_mem_present ?_, Json.depth_lt_of_mem_extra opened⟩)
  simp only [slots, List.forall_mem_cons]
  exact ⟨Json.depth_some positive, Json.depth_flat (fun _ => rfl) positive _,
    Json.depth_some (FromEvent.shallow.field below positive from_),
    Event.shallow.listField below pressed, Event.shallow.listField below alone,
    Event.shallow.listField below released, Condition.shallow.listField below gates, by simp⟩

/-! ## Rules, profiles and documents -/

theorem Rule.shallow : Json.Shallow 0 ofJson? toJson := by
  intro value rule found
  simp only [ofJson?, Option.bind_eq_bind, Option.bind_eq_some_iff, Option.pure_def,
    Option.some.injEq] at found
  obtain ⟨fields, opened, description, -, manipulators, list, rfl⟩ := found
  have positive := Json.depth_pos_of_record? opened
  have below := Json.depth_lt_of_mem_record? opened
  rw [Nat.max_zero]
  show (Json.obj (Json.present (slots _))).depth ≤ value.depth
  refine Json.depth_obj_le positive (Json.depth_lt_of_mem_present ?_)
  simp only [slots, List.forall_mem_cons]
  exact ⟨Json.depth_some positive,
    Json.depth_some (Manipulator.shallow.list.field below positive list), by simp⟩

/-- The record of the rules is written even where the text leaves out the rules in it. -/
theorem Profile.shallow_rules : Json.Shallow 2 rulesOfJson? rulesToJson := by
  intro value rules found
  simp only [rulesOfJson?, Option.bind_eq_bind, Option.bind_eq_some_iff] at found
  obtain ⟨fields, opened, list⟩ := found
  refine Json.depth_obj_le (by omega) (Json.depth_lt_of_mem_present ?_)
  simp only [List.forall_mem_cons]
  refine ⟨Json.depth_some ?_, by simp⟩
  rcases Members.of_fieldOr? list with ⟨field, here, reads⟩ | rfl
  · have written : (Json.arr (rules.map Rule.toJson)).depth ≤ max field.depth 0 :=
      Rule.shallow.list reads
    have inside : field.depth < value.depth := Json.depth_lt_of_mem_record? opened _ here
    omega
  · have flat : (Json.arr []).depth = 1 := rfl
    rw [List.map_nil, flat]
    omega

theorem Profile.shallow : Json.Shallow 3 ofJson? toJson := by
  intro value profile found
  simp only [ofJson?, Option.bind_eq_bind, Option.bind_eq_some_iff, Option.pure_def,
    Option.some.injEq] at found
  obtain ⟨fields, opened, name, -, selected, -, rules, modified, rfl⟩ := found
  have positive : 0 < max value.depth 3 := by omega
  rw [toJson_eq]
  refine Json.depth_obj_le positive (Json.depth_lt_of_mem_present ?_)
  simp only [slots, List.forall_mem_cons]
  refine ⟨Json.depth_some positive, Json.depth_flat (fun _ => rfl) positive _,
    Json.depth_some ?_, by simp⟩
  rcases Members.of_fieldOr? modified with ⟨field, here, reads⟩ | rfl
  · have written := shallow_rules reads
    have inside : field.depth < value.depth := Json.depth_lt_of_mem_record? opened _ here
    omega
  · have flat : (rulesToJson []).depth = 2 := rfl
    omega

theorem Document.shallow_global :
    Json.Shallow 0 globalOfJson? (fun global => Json.obj global) := by
  intro value global found
  cases value with
  | obj members =>
      cases found
      rw [Nat.max_zero]
      refine Json.depth_obj_le (Nat.succ_pos _) fun member among => ?_
      obtain ⟨original, here, rfl⟩ := Json.mem_settleObject among
      have isPart : original.2.IsPart (.obj members) := ⟨_, here⟩
      exact (Json.depth_settle_le _).trans_lt isPart.depth_lt
  | _ => cases found

theorem Document.shallow : Json.Shallow 5 ofJson? toJson := by
  intro value document found
  simp only [ofJson?, Option.bind_eq_bind, Option.bind_eq_some_iff, Option.pure_def,
    Option.some.injEq] at found
  obtain ⟨fields, opened, global, settings, profiles, list, rfl⟩ := found
  have below := Json.depth_lt_of_mem_record? opened
  show (Json.obj (Json.present (slots _))).depth ≤ max value.depth 5
  refine Json.depth_obj_le (by omega) (Json.depth_lt_of_mem_present ?_)
  simp only [slots, List.forall_mem_cons]
  refine ⟨Json.depth_some ?_, Json.depth_some ?_, by simp⟩
  · rcases Members.of_fieldOr? settings with ⟨field, here, reads⟩ | rfl
    · have inside : field.depth < value.depth := below _ here
      have written : (Json.obj global).depth ≤ max field.depth 0 := shallow_global reads
      omega
    · have flat : (Json.obj []).depth = 1 := rfl
      omega
  · rcases Members.of_fieldOr? list with ⟨field, here, reads⟩ | rfl
    · have inside : field.depth < value.depth := below _ here
      have above : 3 < max field.depth 4 := by omega
      have written := Profile.shallow.arr above (Nat.le_max_left _ _) reads
      omega
    · have flat : (Json.arr []).depth = 1 := rfl
      rw [List.map_nil, flat]
      omega

end KeyLayers
