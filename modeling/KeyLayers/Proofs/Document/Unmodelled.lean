import KeyLayers.Proofs.Document.Rules
import KeyLayers.Proofs.Json.Form

/-!
# Members that a manipulator has no field for

Events and the manipulator itself keep the members that they have no field for, and
an assignment with such members is not read as one.  An input, its modifiers, a
condition and an input source skip them without a trace.  `Manipulator.form` says
what is the case where, and `Manipulator.passthrough_exact` that what is written for
a manipulator bears it out at every depth.
-/

namespace KeyLayers

open Json (Form ReadsPlain)

theorem Key.readsPlain : ReadsPlain Key.ofJson? :=
  Json.readsPlain_text.bind _

theorem Modifier.readsPlain : ReadsPlain Modifier.ofJson? :=
  Json.readsPlain_variant.bind _

/-! ## Payloads of events -/

namespace Assignment

/-- There is no other member in the value of an assignment. -/
def form : Form :=
  .record .absent [("name", .plain), ("value", .plain), ("key_up_value", .plain)]

theorem follows_form {value : Json} {assignment : Assignment}
    (found : ofJson? value = some assignment) : form.Follows value (some assignment.toJson) := by
  simp only [ofJson?, Option.bind_eq_bind, Option.bind_eq_some_iff] at found
  rcases found with ⟨fields, closed, name, named, number, valued, keyUpValue, released, -⟩
  apply Form.follows_record (Json.record?_of_closedRecord? closed) rfl (by simp)
  · simp only [List.forall_mem_cons]
    exact ⟨Form.fieldFollows_plain (Json.readsPlain_text.field? named),
      Form.fieldFollows_plain (Json.readsPlain_int.field? valued),
      Form.fieldFollows_plain (Json.readsPlain_int.optional.fieldOr? released), by simp⟩
  · intro other part unknown here
    rw [Json.step?_member_of_closedRecord? closed unknown] at here
    cases here
  · exact fun _ => rfl

end Assignment

namespace InputSource

/-- A selector ignores other members. -/
def form : Form :=
  .record .ignored [("input_source_id", .plain), ("language", .plain), ("input_mode_id", .plain)]

theorem follows_form {value : Json} {source : InputSource}
    (found : ofJson? value = some source) : form.Follows value (some source.toJson) := by
  simp only [ofJson?, Option.bind_eq_bind, Option.bind_eq_some_iff] at found
  rcases found with ⟨fields, read, sourceId, first, language, second, mode, third, -⟩
  have slotted : source.slots.map Prod.fst = _ := rfl
  have pattern := Json.readsPlain_text.optional
  rw [toJson_eq]
  apply Form.follows_closed read rfl slotted (by simp) (.inr rfl)
  simp only [List.forall_mem_cons]
  exact ⟨Form.fieldFollows_plain (pattern.fieldOr? first),
    Form.fieldFollows_plain (pattern.fieldOr? second),
    Form.fieldFollows_plain (pattern.fieldOr? third), by simp⟩

end InputSource

/-! ## Inputs -/

namespace FromModifiers

/-- The modifiers of an input ignore other members. -/
def form : Form :=
  .record .ignored [("mandatory", .plain), ("optional", .plain)]

theorem follows_form {value : Json} {modifiers : FromModifiers} {written : Option Json}
    (found : ofJson? value = some modifiers)
    (only : written = none ∨ written = some modifiers.toJson) : form.Follows value written := by
  simp only [ofJson?, Option.bind_eq_bind, Option.bind_eq_some_iff] at found
  rcases found with ⟨fields, read, mandatory, first, optional, second, -⟩
  have slotted : modifiers.slots.map Prod.fst = _ := rfl
  have list := Modifier.readsPlain.list
  rw [toJson_eq] at only
  apply Form.follows_closed read rfl slotted (by simp) only
  simp only [List.forall_mem_cons]
  exact ⟨Form.fieldFollows_plain (list.fieldOr? first),
    Form.fieldFollows_plain (list.fieldOr? second), by simp⟩

/-- The form is right about modifiers that may be missing, and about what has no parts. -/
theorem follows_optional {value : Json} {modifiers : Option FromModifiers}
    {written : Option Json} (found : Json.optional? ofJson? value = some modifiers)
    (only : written = none ∨ written = modifiers.map toJson) : form.Follows value written := by
  cases modifiers with
  | none =>
      cases Json.eq_null_of_optional? found
      refine Form.follows_of_steps trivial fun step part here => ?_
      cases step <;> cases here
  | some modifiers => exact follows_form (Json.of_optional? found) only

end FromModifiers

namespace FromEvent

/-- An input ignores other members. -/
def form : Form :=
  .record .ignored [("key_code", .plain), ("modifiers", FromModifiers.form)]

theorem follows_form {value : Json} {input : FromEvent} (found : ofJson? value = some input) :
    form.Follows value (some input.toJson) := by
  simp only [ofJson?, Option.bind_eq_bind, Option.bind_eq_some_iff, Option.pure_def,
    Option.some.injEq] at found
  rcases found with ⟨fields, read, key, keyed, modifiers, modified, rfl⟩
  have distinct : ((slots ⟨key, modifiers⟩).map Prod.fst).Nodup := by simp [slots]
  have written : (toJson ⟨key, modifiers⟩).step? (.member "modifiers") =
      modifiers.map FromModifiers.toJson := by
    rw [toJson_eq]
    exact Json.get?_present distinct "modifiers"
  have follows : Form.FieldFollows value fields (some (toJson ⟨key, modifiers⟩))
      ("modifiers", FromModifiers.form) := by
    constructor
    · intro part here
      exact FromModifiers.follows_optional (Members.read_of_fieldOr? modified here) (.inr written)
    · intro part _ here
      exact FromModifiers.follows_optional (Members.read_of_fieldOr? modified here) (.inl rfl)
  rw [toJson_eq] at follows ⊢
  apply Form.follows_closed read rfl rfl (by simp) (.inr rfl)
  simp only [List.forall_mem_cons]
  exact ⟨Form.fieldFollows_plain (Key.readsPlain.field? keyed), follows, by simp⟩

end FromEvent

/-! ## Conditions -/

namespace Condition

/-- A condition ignores other members. -/
def form : Condition → Form
  | variableIf _ _ | variableUnless _ _ =>
      .record .ignored [("type", .plain), ("name", .plain), ("value", .plain)]
  | frontmostIf _ | frontmostUnless _ =>
      .record .ignored [("type", .plain), ("bundle_identifiers", .plain)]

/-- Whether a value has a tag, and which value has the fields that go with the tag. -/
inductive Tagged : Json → String → Json → Prop where
  | obj {members : List (String × Json)} {typed : Members Json} {tag : String}
      (known : Json.known? ["type"] members = some typed)
      (reads : typed.field? "type" Json.text? = some tag) :
      Tagged (.obj members) tag (.obj (Json.others ["type"] members))
  | arr (tag : String) (items : List Json) : Tagged (.arr (.str tag :: items)) tag (.arr items)

theorem exists_tagged {value : Json} {condition : Condition}
    (found : ofJson? value = some condition) :
    ∃ tag rest, Tagged value tag rest ∧ ofTagged? tag rest = some condition := by
  unfold ofJson? at found
  split at found
  next members =>
    simp only [Option.bind_eq_bind, Option.bind_eq_some_iff] at found
    rcases found with ⟨typed, known, tag, reads, tagged⟩
    exact ⟨tag, _, .obj known reads, tagged⟩
  next tag items => exact ⟨tag, _, .arr tag items, found⟩
  next => cases found

/-- The fields that go with a tag are fields of one record with the tag. -/
theorem Tagged.record? {value rest : Json} {tag : String} {names : List String}
    {fields : Members Json} (tagged : Tagged value tag rest) (proper : value.Proper)
    (found : rest.record? names = some fields) (apart : "type" ∉ names) :
    ∃ all, value.record? ("type" :: names) = some all ∧
      (∀ part, Members.get? all "type" = some part → part.IsPlain) ∧
      ∀ name ∈ names, Members.get? all name = fields.get? name := by
  have other : ∀ name ∈ names, name ≠ "type" := by
    rintro name member rfl
    exact apart member
  cases tagged with
  | @obj members typed _ known reads =>
      have distinct := (Json.proper_obj_iff.1 proper).distinct
      refine ⟨_, Json.known?_eq distinct, ?_, ?_⟩
      · intro part here
        rw [Json.get?_known members List.mem_cons_self] at here
        have given : (Json.obj members).record? ["type"] = some typed := known
        exact Json.readsPlain_text.field? reads part (Json.get?_of_member given (.head _) here)
      · intro name member
        simp only [Json.record?, Json.known?, Option.ite_none_right_eq_some,
          Option.some.injEq] at found
        rcases found with ⟨-, rfl⟩
        have notTag : name ∉ ["type"] := fun same => other name member (List.mem_singleton.1 same)
        rw [Json.get?_known members (List.mem_cons_of_mem _ member), Json.get?_known _ member,
          Json.get?_others members notTag]
  | arr _ items =>
      simp only [Json.record?, Option.ite_none_right_eq_some, Option.some.injEq] at found
      rcases found with ⟨short, rfl⟩
      refine ⟨("type", .str tag) :: names.zip items, ?_, ?_, ?_⟩
      · have short : (Json.str tag :: items).length ≤ ("type" :: names).length :=
          Nat.succ_le_succ short
        rw [Json.record?, if_pos short]
        rfl
      · intro part here
        rw [Members.get?_cons_self] at here
        cases here
        exact .str tag
      · exact fun name member => Members.get?_cons_other (other name member)

theorem follows_form {value : Json} {condition : Condition} (proper : value.Proper)
    (found : ofJson? value = some condition) :
    condition.form.Follows value (some condition.toJson) := by
  rcases exists_tagged found with ⟨tag, rest, tagged, read⟩
  unfold ofTagged? at read
  simp only [Option.bind_eq_bind, Option.pure_def] at read
  rw [toJson_eq]
  split at read
  case h_1 | h_2 =>
    simp only [Option.bind_eq_some_iff, Option.some.injEq] at read
    rcases read with ⟨fields, opened, name, named, number, valued, rfl⟩
    rcases tagged.record? proper opened (by simp) with ⟨all, read, typed, same⟩
    apply Form.follows_closed read rfl rfl (by simp) (.inr rfl)
    simp only [List.forall_mem_cons]
    refine ⟨Form.fieldFollows_plain typed, Form.fieldFollows_plain ?_,
      Form.fieldFollows_plain ?_, by simp⟩
    · rw [same _ (by simp)]
      exact Json.readsPlain_text.field? named
    · rw [same _ (by simp)]
      exact Json.readsPlain_int.field? valued
  case h_3 | h_4 =>
    simp only [Option.bind_eq_some_iff, Option.some.injEq] at read
    rcases read with ⟨fields, opened, patterns, listed, rfl⟩
    rcases tagged.record? proper opened (by simp) with ⟨all, read, typed, same⟩
    apply Form.follows_closed read rfl rfl (by simp) (.inr rfl)
    simp only [List.forall_mem_cons]
    refine ⟨Form.fieldFollows_plain typed, Form.fieldFollows_plain ?_, by simp⟩
    rw [same _ (by simp)]
    exact Json.readsPlain_text.list.field? listed
  case h_5 => cases read

end Condition

/-! ## Events -/

namespace Event

/-- An event of a kind keeps other members; a raw one is passed through. -/
def form : Event → Form
  | setVariable _ _ => .record .kept [("set_variable", Assignment.form)]
  | shellCommand _ _ => .record .kept [("shell_command", .plain)]
  | selectInputSource _ _ => .record .kept [("select_input_source", InputSource.form)]
  | key _ => .record .kept [("key_code", .plain), ("modifiers", .plain), ("lazy", .plain)]
  | raw _ => .kept

section

variable {members : List (String × Json)} (settled : Json.SettledMembers members)

include settled

/-- The form of an event with one field of its own is right if that of the field is. -/
theorem follows_field {name : String} {form : Form} {written : Json}
    (field : ∀ part, Members.get? members name = some part → form.Follows part (some written)) :
    (Form.record .kept [(name, form)]).Follows (.obj members)
      (some (.obj ((name, written) :: Json.others [name] members))) := by
  have slotted : [(name, some written)].map Prod.fst = [name] := rfl
  apply Form.follows_open settled (Json.openRecord?_obj [name] settled) rfl slotted (by simp)
  rw [List.forall_mem_singleton]
  intro part here
  rw [List.lookup_cons_self]
  exact field part ((Json.get?_known members List.mem_cons_self).symm.trans here)

theorem follows_press {press : KeyPress} (found : KeyPress.ofJson? (.obj members) = some press) :
    (form (.key press)).Follows (.obj members) (some press.toJson) := by
  simp only [KeyPress.ofJson?, Option.bind_eq_bind, Option.bind_eq_some_iff, Option.pure_def,
    Option.some.injEq] at found
  rcases found with ⟨⟨fields, extra⟩, opened, key, keyed, modifiers, held, isLazy, marked, rfl⟩
  have slotted : (KeyPress.slots ⟨key, modifiers, isLazy, extra⟩).map Prod.fst = _ := rfl
  rw [KeyPress.toJson_eq]
  apply Form.follows_open settled opened rfl slotted (by simp)
  simp only [List.forall_mem_cons]
  refine ⟨fun part here => ?_, fun part here => ?_, fun part here => ?_, by simp⟩
  · exact Form.follows_plain (Key.readsPlain.field? keyed part here) _
  · exact Form.follows_plain (Modifier.readsPlain.list.fieldOr? held part here) _
  · exact Form.follows_plain (Json.readsPlain_bool.fieldOr? marked part here) _

end

theorem follows_form {value : Json} (proper : value.Proper) :
    (ofJson value).form.Follows value (some (ofJson value).toJson) := by
  cases value with
  | obj members =>
      have settled := Json.settledMembers_of_proper proper
      have read := isRead_ofJson settled
      generalize ofJson (.obj members) = event at read ⊢
      cases read with
      | setVariable reads =>
          apply follows_field settled
          intro part here
          rw [here] at reads
          exact Assignment.follows_form reads
      | shellCommand _ reads =>
          apply follows_field settled
          intro part here
          rw [here] at reads
          exact Form.follows_plain (Json.readsPlain_text part _ reads) _
      | selectInputSource _ _ reads =>
          apply follows_field settled
          intro part here
          rw [here] at reads
          exact InputSource.follows_form reads
      | key _ _ _ reads => exact follows_press settled reads
      | raw => exact Form.follows_kept _
  | _ =>
      rw [ofJson_eq_raw proper.settled (by simp)]
      exact Form.follows_kept _

end Event

/-! ## Manipulators -/

namespace Manipulator

/-- A manipulator keeps other members; what its fields do depends on the events. -/
def form (manipulator : Manipulator) : Form :=
  .record .kept
    [("type", .plain), ("description", .plain), ("from", FromEvent.form),
      ("to", .list (manipulator.onPress.map Event.form)),
      ("to_if_alone", .list (manipulator.ifAlone.map Event.form)),
      ("to_after_key_up", .list (manipulator.onRelease.map Event.form)),
      ("conditions", .list (manipulator.conditions.map Condition.form))]

/-- Events follow their forms if they are read from the items of a list. -/
theorem follows_events {value : Json} {events : List Event} (proper : value.Proper)
    (read : value.list? (fun item => some (Event.ofJson item)) = some events) :
    (Form.list (events.map Event.form)).Follows value (Json.listField Event.toJson events) := by
  cases value with
  | arr items =>
      apply Form.follows_list Event.form read
      rintro item member _ ⟨⟩
      exact Event.follows_form (Json.proper_arr_iff.1 proper item member)
  | _ => cases read

theorem follows_conditions {value : Json} {conditions : List Condition} (proper : value.Proper)
    (read : value.list? Condition.ofJson? = some conditions) :
    (Form.list (conditions.map Condition.form)).Follows value
      (Json.listField Condition.toJson conditions) := by
  cases value with
  | arr items =>
      apply Form.follows_list Condition.form read
      intro item member condition reads
      exact Condition.follows_form (Json.proper_arr_iff.1 proper item member) reads
  | _ => cases read

theorem readsPlain_basic : ReadsPlain isBasic? := by
  intro value _ found
  simp only [isBasic?, Option.ite_none_right_eq_some] at found
  exact Json.readsPlain_variant value _ found.1

theorem follows_form {value : Json} {manipulator : Manipulator} (proper : value.Proper)
    (found : ofJson? value = some manipulator) :
    manipulator.form.Follows value (some manipulator.toJson) := by
  simp only [ofJson?, Option.bind_eq_bind, Option.bind_eq_some_iff, Option.pure_def,
    Option.some.injEq] at found
  rcases found with ⟨⟨fields, extra⟩, opened, kind, typed, description, described, input, given,
    onPress, pressed, ifAlone, alone, onRelease, released, conditions, gates, rfl⟩
  rcases Json.of_openRecord? opened with ⟨members, rfl, -, -⟩
  have parts : ∀ {name part}, fields.get? name = some part → part.Proper := fun here =>
    proper.within (Json.isPart_of_openRecord? opened (Members.mem_of_get? here)).within
  rw [toJson_eq]
  apply Form.follows_open (Json.settledMembers_of_proper proper) opened rfl rfl (by decide)
  simp only [List.forall_mem_cons]
  refine ⟨fun part here => ?_, fun part here => ?_, fun part here => ?_, fun part here => ?_,
    fun part here => ?_, fun part here => ?_, fun part here => ?_, by simp⟩
  · exact Form.follows_plain (readsPlain_basic.fieldOr? typed part here) _
  · exact Form.follows_plain (Json.readsPlain_text.optional.fieldOr? described part here) _
  · rw [Members.field?, here] at given
    exact FromEvent.follows_form given
  · exact follows_events (parts here) (Members.read_of_fieldOr? pressed here)
  · exact follows_events (parts here) (Members.read_of_fieldOr? alone here)
  · exact follows_events (parts here) (Members.read_of_fieldOr? released here)
  · exact follows_conditions (parts here) (Members.read_of_fieldOr? gates here)

/-- The lists of events of a manipulator, under the names of their fields. -/
def eventLists (manipulator : Manipulator) : List (String × List Event) :=
  [("to", manipulator.onPress), ("to_if_alone", manipulator.ifAlone),
    ("to_after_key_up", manipulator.onRelease)]

end Manipulator

/-! ## What is lost -/

theorem Assignment.lossless_form : Assignment.form.Lossless :=
  Form.lossless_record Form.lossless_absent (by simp [Form.lossless_plain])

/-- An event that ignores a member selects an input source. -/
theorem Event.exists_of_ignored {event : Event} {place : Json.Place}
    (ignored : event.form.inside place = .ignored) :
    ∃ source extra, event = .selectInputSource source extra := by
  cases event with
  | selectInputSource source extra => exact ⟨source, extra, rfl⟩
  | raw value => exact absurd ignored (Form.lossless_kept place)
  | setVariable assignment extra =>
      have lossless : (setVariable assignment extra).form.Lossless :=
        Form.lossless_record Form.lossless_kept (by simp [Assignment.lossless_form])
      exact absurd ignored (lossless place)
  | shellCommand command extra =>
      have lossless : (shellCommand command extra).form.Lossless :=
        Form.lossless_record Form.lossless_kept (by simp [Form.lossless_plain])
      exact absurd ignored (lossless place)
  | key press =>
      have lossless : (key press).form.Lossless :=
        Form.lossless_record Form.lossless_kept (by simp [Form.lossless_plain])
      exact absurd ignored (lossless place)

namespace Manipulator

theorem exists_of_ignored_events {events : List Event} {rest : Json.Place}
    (ignored : (Form.list (events.map Event.form)).inside rest = .ignored) :
    ∃ index inner source extra, rest = .item index :: inner ∧
      events[index]? = some (.selectInputSource source extra) := by
  cases rest with
  | nil => simp [Form.inside] at ignored
  | cons step inner =>
      cases step with
      | member name => exact absurd ignored (Form.lossless_absent inner)
      | item index =>
          rw [Form.inside, Form.step, List.getElem?_map] at ignored
          cases listed : events[index]? with
          | none =>
              rw [listed] at ignored
              exact absurd ignored (Form.lossless_absent inner)
          | some event =>
              rw [listed] at ignored
              rcases Event.exists_of_ignored ignored with ⟨source, extra, rfl⟩
              exact ⟨index, inner, source, extra, rfl, listed⟩

/-- A member is ignored in an input, in a condition or where an input source is selected only. -/
theorem of_ignored {manipulator : Manipulator} {name : String} {rest : Json.Place}
    (ignored : manipulator.form.inside (.member name :: rest) = .ignored) :
    name = "from" ∨ name = "conditions" ∨
      ∃ events, (name, events) ∈ manipulator.eventLists ∧
        ∃ index inner source extra, rest = .item index :: inner ∧
          events[index]? = some (.selectInputSource source extra) := by
  rw [form, Form.inside, Form.step] at ignored
  generalize found : List.lookup name _ = field at ignored
  cases field with
  | none => exact absurd ignored (Form.lossless_kept rest)
  | some form =>
      have member := mem_of_lookup found
      simp only [List.mem_cons, Prod.mk.injEq, List.not_mem_nil, or_false] at member
      rcases member with ⟨rfl, rfl⟩ | ⟨rfl, rfl⟩ | ⟨rfl, rfl⟩ | ⟨rfl, rfl⟩ | ⟨rfl, rfl⟩ |
        ⟨rfl, rfl⟩ | ⟨rfl, rfl⟩
      · exact absurd ignored (Form.lossless_plain rest)
      · exact absurd ignored (Form.lossless_plain rest)
      · exact .inl rfl
      · exact .inr (.inr ⟨_, .head _, exists_of_ignored_events ignored⟩)
      · exact .inr (.inr ⟨_, .tail _ (.head _), exists_of_ignored_events ignored⟩)
      · exact .inr (.inr ⟨_, .tail _ (.tail _ (.head _)), exists_of_ignored_events ignored⟩)
      · exact .inr (.inl rfl)

/--
The form of a manipulator is right about everything in the value that it was read
from: what there is no field for, at any depth, is written back at its place if the
form says that it is kept, and is not written if it is ignored.  What is ignored
stands in the input, in a condition or in an event that selects an input source.
-/
theorem passthrough_exact (value : Json) (manipulator : Manipulator) (proper : value.Proper)
    (read : ofJson? value = some manipulator) :
    (∀ place part, value.at? place = some part →
      (manipulator.form.inside place).Holds part (manipulator.toJson.at? place)) ∧
    ∀ name rest, manipulator.form.inside (.member name :: rest) = .ignored →
      name = "from" ∨ name = "conditions" ∨
        ∃ events, (name, events) ∈ manipulator.eventLists ∧
          ∃ index inner source extra, rest = .item index :: inner ∧
            events[index]? = some (.selectInputSource source extra) :=
  ⟨follows_form proper read, fun _ _ => of_ignored⟩

end Manipulator

namespace Sample

/-- A manipulator in which every kind of record has a member without a field. -/
def richManipulator : Json :=
  .obj [("type", .str "basic"),
    ("from", .obj [("key_code", .str "x"), ("simultaneous", .arr [.str "k"])]),
    ("to", .arr [.obj [("key_code", .str "y"), ("repeat", .bool false)],
      .obj [("select_input_source", .obj [("language", .str "en"), ("note", .int 1)])],
      .obj [("mouse_key", .obj [("x", .int 1536)])]]),
    ("conditions", .arr [.obj [("type", .str "frontmost_application_if"),
      ("bundle_identifiers", .arr [.str "finder"]), ("file_paths", .arr [.str "Finder"])]]),
    ("parameters", .obj [("timeout", .int 250)])]

/-- What `richManipulator` is read as. -/
def readManipulator : Manipulator where
  from_ := ⟨⟨"x", by decide⟩, none⟩
  onPress := [.key ⟨⟨"y", by decide⟩, [], false, [("repeat", .bool false)]⟩,
    .selectInputSource ⟨none, some "en", none⟩ [],
    .raw (.obj [("mouse_key", .obj [("x", .int 1536)])])]
  conditions := [.frontmostIf ["finder"]]
  extra := [("parameters", .obj [("timeout", .int 250)])]

theorem proper_rich : richManipulator.Proper := by
  simp [richManipulator, Members.each_iff, Members.names]

theorem read_rich : Manipulator.ofJson? richManipulator = some readManipulator := by
  decide +kernel

theorem rich_passed :
    richManipulator.Proper ∧
      Manipulator.ofJson? richManipulator = some readManipulator ∧
      readManipulator.toJson.at? [.member "parameters", .member "timeout"] = some (.int 250) ∧
      readManipulator.toJson.at? [.member "to", .item 2, .member "mouse_key", .member "x"] =
        some (.int 1536) ∧
      readManipulator.toJson.at? [.member "from", .member "simultaneous"] = none := by
  have passed := (Manipulator.passthrough_exact _ _ proper_rich read_rich).1
  exact ⟨proper_rich, read_rich,
    passed [.member "parameters", .member "timeout"] _ rfl,
    passed [.member "to", .item 2, .member "mouse_key", .member "x"] _ rfl,
    passed [.member "from", .member "simultaneous"] _ rfl⟩

/-- Not everything that a manipulator has no field for is written back. -/
theorem rich_loses_members :
    ¬ ∀ (value : Json) (manipulator : Manipulator), value.Proper →
      Manipulator.ofJson? value = some manipulator →
      ∀ place part, value.at? place = some part → (manipulator.form.inside place).IsOther →
        manipulator.toJson.at? place = some part := by
  intro lossless
  have kept := lossless _ _ proper_rich read_rich
    [.member "conditions", .item 0, .member "file_paths"] _ rfl trivial
  exact absurd kept (by decide +kernel)

end Sample

end KeyLayers
