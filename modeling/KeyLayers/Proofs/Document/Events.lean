import KeyLayers.Action
import KeyLayers.Event.Json
import KeyLayers.Proofs.Json.Record

/-!
# Events are read back

The kinds of events are told apart by trying them in order (`Event.IsRead`).  An
event that has been read is written as a value that none of the earlier kinds fits
either: what made them fail before is still there, among the other members
(`Event.ofJson_toJson_ofJson`).
-/

namespace KeyLayers

open Json (Faithful Kept Extra SettledMembers PrintableMembers)

/-! ## Keys and modifiers -/

theorem Key.parse_name (key : Key) : Key.parse key.name = .ok key := by
  rw [Key.parse, Key.fold_name, Key.ofSpelling?, Key.ofName?_name]
  rfl

theorem Key.faithful (key : Key) : Faithful Key.ofJson? Key.toJson key where
  printable := .str key.name
  reads := by simp [Key.ofJson?, Key.toJson, Json.text?, Key.parse_name, Except.toOption]

theorem Modifier.faithful (modifier : Modifier) :
    Faithful Modifier.ofJson? Modifier.toJson modifier where
  printable := .str modifier.name
  reads := by simp [Modifier.ofJson?, Modifier.toJson, Json.variant?]

/-! ## Assignments -/

namespace Assignment

/-- Whether the values of an assignment fit into signed words. -/
def Signed (assignment : Assignment) : Prop :=
  Word.isSigned assignment.value = true ∧
    ∀ value ∈ assignment.keyUpValue, Word.isSigned value = true

/-- The fields of an assignment. -/
def slots (assignment : Assignment) : List (String × Option Json) :=
  [("name", some (.str assignment.name)), ("value", some (.int assignment.value)),
    ("key_up_value", assignment.keyUpValue.map .int)]

theorem toJson_eq (assignment : Assignment) :
    assignment.toJson = .obj (Json.present assignment.slots) := by
  obtain ⟨name, value, keyUpValue⟩ := assignment
  cases keyUpValue <;> rfl

theorem signed_of_ofJson? {value : Json} {assignment : Assignment}
    (found : ofJson? value = some assignment) : assignment.Signed := by
  simp only [ofJson?, Option.bind_eq_bind, Option.bind_eq_some_iff, Option.pure_def,
    Option.some.injEq] at found
  obtain ⟨fields, -, name, -, number, here, keyUpValue, there, rfl⟩ := found
  simp only [Members.field?, Option.bind_eq_some_iff] at here
  obtain ⟨field, -, read⟩ := here
  refine ⟨Json.signed_of_int? read, ?_⟩
  rintro released rfl
  rcases Members.fieldOr?_eq_some there with ⟨field, -, read⟩ | missing
  · exact Json.signed_of_int? (Json.of_optional? read)
  · cases missing

theorem faithful {assignment : Assignment} (signed : assignment.Signed) :
    Faithful ofJson? toJson assignment := by
  have distinct : (assignment.slots.map Prod.fst).Nodup := by simp [slots]
  have value := Json.faithful_int signed.1
  have released : ∀ value ∈ assignment.keyUpValue, Faithful Json.int? .int value :=
    fun value member => Json.faithful_int (signed.2 value member)
  rw [Json.faithful_iff, toJson_eq]
  constructor
  · apply Json.printable_present distinct
    simp only [slots, List.forall_mem_cons]
    exact ⟨Json.printable_some (.str _), Json.printable_some value.printable,
      Json.printable_option released, by simp⟩
  · have fields : Json.closedRecord? ["name", "value", "key_up_value"] _ = _ :=
      Json.closedRecord?_written distinct
    have name : Members.field? (Json.present assignment.slots) "name" Json.text? = _ :=
      Json.field?_present distinct rfl
    have number : Members.field? (Json.present assignment.slots) "value" Json.int? = _ :=
      (Json.field?_present distinct rfl).trans value.reads
    have keyUpValue : Members.fieldOr? (Json.present assignment.slots) "key_up_value" _ none = _ :=
      Json.fieldOr?_option distinct rfl released (by simp)
    simp [ofJson?, fields, name, number, keyUpValue, Json.text?]

end Assignment

/-! ## Selectors -/

namespace InputSource

/-- The fields of a selector. -/
def slots (source : InputSource) : List (String × Option Json) :=
  [("input_source_id", source.sourceId.map .str), ("language", source.language.map .str),
    ("input_mode_id", source.mode.map .str)]

theorem toJson_eq (source : InputSource) :
    source.toJson = .obj (Json.present source.slots) := by
  obtain ⟨sourceId, language, mode⟩ := source
  cases sourceId <;> cases language <;> cases mode <;> rfl

theorem faithful (source : InputSource) : Faithful ofJson? toJson source := by
  have distinct : (source.slots.map Prod.fst).Nodup := by simp [slots]
  have text : ∀ pattern : Option String, ∀ part ∈ pattern, Faithful Json.text? .str part :=
    fun _ part _ => Json.faithful_text part
  rw [Json.faithful_iff, toJson_eq]
  constructor
  · apply Json.printable_present distinct
    simp only [slots, List.forall_mem_cons]
    exact ⟨Json.printable_option (text _), Json.printable_option (text _),
      Json.printable_option (text _), by simp⟩
  · have fields : Json.record? ["input_source_id", "language", "input_mode_id"] _ = _ :=
      Json.record?_written distinct
    have sourceId : Members.fieldOr? (Json.present source.slots) "input_source_id" _ none = _ :=
      Json.fieldOr?_option distinct rfl (text source.sourceId) (by simp)
    have language : Members.fieldOr? (Json.present source.slots) "language" _ none = _ :=
      Json.fieldOr?_option distinct rfl (text source.language) (by simp)
    have mode : Members.fieldOr? (Json.present source.slots) "input_mode_id" _ none = _ :=
      Json.fieldOr?_option distinct rfl (text source.mode) (by simp)
    simp [ofJson?, fields, sourceId, language, mode]

end InputSource

/-! ## Key presses -/

namespace KeyPress

/-- The names of the fields of a key press. -/
def fieldNames : List String :=
  ["key_code", "modifiers", "lazy"]

/-- The fields of a key press. -/
def slots (press : KeyPress) : List (String × Option Json) :=
  [("key_code", some press.key.toJson),
    ("modifiers", Json.listField Modifier.toJson press.modifiers),
    ("lazy", if press.isLazy then some (.bool true) else none)]

theorem toJson_eq (press : KeyPress) :
    press.toJson = .obj (Json.present press.slots ++ press.extra) := by
  obtain ⟨key, modifiers, isLazy, extra⟩ := press
  cases modifiers <;> cases isLazy <;> rfl

theorem extra_of_ofJson? {members : List (String × Json)} {press : KeyPress}
    (settled : SettledMembers members) (found : ofJson? (.obj members) = some press) :
    press.extra = Json.others fieldNames members := by
  simp only [ofJson?, Option.bind_eq_bind, Option.bind_eq_some_iff, Option.pure_def,
    Option.some.injEq] at found
  obtain ⟨⟨fields, extra⟩, opened, key, -, modifiers, -, isLazy, -, rfl⟩ := found
  rw [Json.openRecord?_obj _ settled] at opened
  cases opened
  rfl

theorem distinct_slots (press : KeyPress) : (press.slots.map Prod.fst).Nodup := by
  simp [slots]

theorem printable_slots (press : KeyPress) :
    ∀ slot ∈ press.slots, ∀ value ∈ slot.2, value.Printable := by
  simp only [slots, List.forall_mem_cons]
  refine ⟨Json.printable_some press.key.faithful.printable,
    Json.printable_listField fun modifier _ => modifier.faithful.printable, ?_, by simp⟩
  cases press.isLazy with
  | true => exact Json.printable_some (.bool true)
  | false => simp

/-- A key press is read back from what is written for it. -/
theorem ofJson?_toJson {press : KeyPress} (others : Kept fieldNames press.extra) :
    ofJson? press.toJson = some press := by
  have distinct := press.distinct_slots
  have opened : Json.openRecord? ["key_code", "modifiers", "lazy"] _ = _ :=
    Json.openRecord?_written distinct others
  have key : Members.field? (Json.present press.slots) "key_code" Key.ofJson? = _ :=
    (Json.field?_present distinct rfl).trans press.key.faithful.reads
  have held : Members.fieldOr? (Json.present press.slots) "modifiers" _ [] = _ :=
    Json.fieldOr?_list distinct rfl fun modifier _ => modifier.faithful
  have isLazy : Members.fieldOr? (Json.present press.slots) "lazy" Json.bool? false =
      some press.isLazy := by
    have here : press.slots.lookup "lazy" =
      some (if press.isLazy then some (.bool true) else none) := rfl
    cases isLazy : press.isLazy with
    | true =>
        rw [isLazy] at here
        exact Json.fieldOr?_present distinct here
    | false =>
        rw [isLazy] at here
        exact Json.fieldOr?_absent distinct here
  rw [toJson_eq]
  simp [ofJson?, opened, key, held, isLazy]

theorem faithful {press : KeyPress} (others : Extra fieldNames press.extra) :
    Faithful ofJson? toJson press where
  printable := by
    rw [toJson_eq]
    exact Json.printable_written press.distinct_slots others press.printable_slots
  reads := ofJson?_toJson others.kept

end KeyPress

/-! ## Events -/

namespace Event

/-- Whether an event is read back from what is written for it. -/
abbrev IsFaithful (event : Event) : Prop :=
  Faithful (fun value => some (ofJson value)) toJson event

section

variable {members : List (String × Json)} {event : Event}

/-- The event that the members of an object are read as: one of the first kind that they fit. -/
inductive IsRead (members : List (String × Json)) : Event → Prop where
  | setVariable {assignment : Assignment}
      (reads : (Members.get? members "set_variable").bind Assignment.ofJson? = some assignment) :
      IsRead members (.setVariable assignment (Json.others ["set_variable"] members))
  | shellCommand {command : String}
      (noVariable : (Members.get? members "set_variable").bind Assignment.ofJson? = none)
      (reads : (Members.get? members "shell_command").bind Json.text? = some command) :
      IsRead members (.shellCommand command (Json.others ["shell_command"] members))
  | selectInputSource {source : InputSource}
      (noVariable : (Members.get? members "set_variable").bind Assignment.ofJson? = none)
      (noCommand : (Members.get? members "shell_command").bind Json.text? = none)
      (reads : (Members.get? members "select_input_source").bind InputSource.ofJson? =
        some source) :
      IsRead members (.selectInputSource source (Json.others ["select_input_source"] members))
  | key {press : KeyPress}
      (noVariable : (Members.get? members "set_variable").bind Assignment.ofJson? = none)
      (noCommand : (Members.get? members "shell_command").bind Json.text? = none)
      (noSource : (Members.get? members "select_input_source").bind InputSource.ofJson? = none)
      (reads : KeyPress.ofJson? (.obj members) = some press) : IsRead members (.key press)
  | raw
      (noVariable : (Members.get? members "set_variable").bind Assignment.ofJson? = none)
      (noCommand : (Members.get? members "shell_command").bind Json.text? = none)
      (noSource : (Members.get? members "select_input_source").bind InputSource.ofJson? = none)
      (noPress : KeyPress.ofJson? (.obj members) = none) : IsRead members (.raw (.obj members))

theorem ofField?_obj (settled : SettledMembers members) {α : Type} (name : String)
    (read : Json → Option α) (make : α → Members Json → Event) :
    ofField? name read make (.obj members) =
      ((Members.get? members name).bind read).map (make · (Json.others [name] members)) := by
  rw [ofField?, Json.openRecord?_obj _ settled]
  simp only [Option.bind_eq_bind, Option.bind_some, Members.field?,
    Json.get?_known members List.mem_cons_self]
  cases (Members.get? members name).bind read <;> rfl

theorem IsRead.ofJson_eq (settled : SettledMembers members) (read : IsRead members event) :
    ofJson (.obj members) = event := by
  simp only [ofJson, ofField?_obj settled, (Json.settled_obj settled).settle_eq]
  cases read with
  | setVariable reads => simp [reads]
  | shellCommand noVariable reads => simp [noVariable, reads]
  | selectInputSource noVariable noCommand reads => simp [noVariable, noCommand, reads]
  | key noVariable noCommand noSource reads => simp [noVariable, noCommand, noSource, reads]
  | raw noVariable noCommand noSource noPress => simp [noVariable, noCommand, noSource, noPress]

theorem isRead_ofJson (settled : SettledMembers members) :
    IsRead members (ofJson (.obj members)) := by
  suffices some_event : ∃ event, IsRead members event by
    obtain ⟨event, read⟩ := some_event
    rwa [read.ofJson_eq settled]
  cases noVariable : (Members.get? members "set_variable").bind Assignment.ofJson? with
  | some assignment => exact ⟨_, .setVariable noVariable⟩
  | none =>
      cases noCommand : (Members.get? members "shell_command").bind Json.text? with
      | some command => exact ⟨_, .shellCommand noVariable noCommand⟩
      | none =>
          cases noSource : (Members.get? members "select_input_source").bind
              InputSource.ofJson? with
          | some source => exact ⟨_, .selectInputSource noVariable noCommand noSource⟩
          | none =>
              cases noPress : KeyPress.ofJson? (.obj members) with
              | some press => exact ⟨_, .key noVariable noCommand noSource noPress⟩
              | none => exact ⟨_, .raw noVariable noCommand noSource noPress⟩

end

/-! ## Events that are written -/

section

variable {name : String} {field : Json} {extra : Members Json}

theorem each_cons {holds : Json → Prop} (others : Members.Each holds extra)
    (apart : ∀ other ∈ extra.names, other ∉ [name]) (held : holds field) :
    Members.Each holds ((name, field) :: extra) where
  distinct := List.nodup_cons.2
    ⟨fun member => apart name member List.mem_cons_self, others.distinct⟩
  each := List.forall_mem_cons.2 ⟨held, others.each⟩

theorem printableMembers_cons (others : Extra [name] extra) (printable : field.Printable) :
    PrintableMembers ((name, field) :: extra) :=
  each_cons others.toEach others.apart printable

theorem others_cons (others : Kept [name] extra) :
    Json.others [name] ((name, field) :: extra) = extra := by
  show Json.others ([(name, some field)].map Prod.fst)
    (Json.present [(name, some field)] ++ extra) = extra
  exact Json.filter_others others

end

theorem ofJson_setVariable {assignment : Assignment} {extra : Members Json}
    (signed : assignment.Signed) (others : Kept ["set_variable"] extra) :
    ofJson (Event.setVariable assignment extra).toJson = .setVariable assignment extra := by
  have written := Assignment.faithful signed
  have settled := each_cons others.toEach others.apart (Json.settle_eq written.printable)
  have reads : (Members.get? (("set_variable", assignment.toJson) :: extra) "set_variable").bind
      Assignment.ofJson? = some assignment := by
    rw [Members.get?_cons_self, Option.bind_some, written.reads]
  have read := IsRead.setVariable reads
  rw [others_cons others] at read
  exact read.ofJson_eq settled

theorem ofJson_shellCommand {command : String} {extra : Members Json}
    (others : Kept ["shell_command"] extra)
    (noVariable : (extra.get? "set_variable").bind Assignment.ofJson? = none) :
    ofJson (Event.shellCommand command extra).toJson = .shellCommand command extra := by
  have settled : SettledMembers (("shell_command", .str command) :: extra) :=
    each_cons others.toEach others.apart rfl
  have other : Members.get? (("shell_command", Json.str command) :: extra) "set_variable" =
    extra.get? "set_variable" := rfl
  have reads : (Members.get? (("shell_command", Json.str command) :: extra) "shell_command").bind
      Json.text? = some command := by
    rw [Members.get?_cons_self, Option.bind_some, Json.text?]
  have read := IsRead.shellCommand (other ▸ noVariable) reads
  rw [others_cons others] at read
  exact read.ofJson_eq settled

theorem ofJson_selectInputSource {source : InputSource} {extra : Members Json}
    (others : Kept ["select_input_source"] extra)
    (noVariable : (extra.get? "set_variable").bind Assignment.ofJson? = none)
    (noCommand : (extra.get? "shell_command").bind Json.text? = none) :
    ofJson (Event.selectInputSource source extra).toJson = .selectInputSource source extra := by
  have written := source.faithful
  have settled := each_cons others.toEach others.apart (Json.settle_eq written.printable)
  have other : ∀ name, name ≠ "select_input_source" →
      Members.get? (("select_input_source", source.toJson) :: extra) name = extra.get? name :=
    fun name differ => Members.get?_cons_other differ
  have reads : (Members.get? (("select_input_source", source.toJson) :: extra)
      "select_input_source").bind InputSource.ofJson? = some source := by
    rw [Members.get?_cons_self, Option.bind_some, written.reads]
  have read := IsRead.selectInputSource (other "set_variable" (by decide) ▸ noVariable)
    (other "shell_command" (by decide) ▸ noCommand) reads
  rw [others_cons others] at read
  exact read.ofJson_eq settled

theorem ofJson_key {press : KeyPress} (others : Kept KeyPress.fieldNames press.extra)
    (noVariable : (press.extra.get? "set_variable").bind Assignment.ofJson? = none)
    (noCommand : (press.extra.get? "shell_command").bind Json.text? = none)
    (noSource : (press.extra.get? "select_input_source").bind InputSource.ofJson? = none) :
    ofJson (Event.key press).toJson = .key press := by
  have settled : SettledMembers (Json.present press.slots ++ press.extra) :=
    Json.each_written press.distinct_slots others.toEach others.apart
      fun slot member value here => Json.settle_eq (press.printable_slots slot member value here)
  have other : ∀ name, name ∉ KeyPress.fieldNames →
      Members.get? (Json.present press.slots ++ press.extra) name = press.extra.get? name :=
    fun name unknown => Json.get?_written_other unknown
  have reads := KeyPress.ofJson?_toJson others
  rw [press.toJson_eq] at reads
  have read := IsRead.key (other "set_variable" (by decide) ▸ noVariable)
    (other "shell_command" (by decide) ▸ noCommand)
    (other "select_input_source" (by decide) ▸ noSource) reads
  rw [toJson, press.toJson_eq]
  exact read.ofJson_eq settled

/-- A value that is no object is of no kind. -/
theorem ofJson_eq_raw {value : Json} (settled : value.Settled)
    (other : ∀ members, value ≠ .obj members) : ofJson value = .raw value := by
  cases value with
  | obj members => exact absurd rfl (other members)
  | _ => simp [ofJson, ofField?, KeyPress.ofJson?, Json.openRecord?, settled.settle_eq]

/-- An event that has been read from an object is read back from what is written for it. -/
theorem ofJson_toJson_ofJson_obj {members : Members Json} (settled : SettledMembers members) :
    ofJson (ofJson (.obj members)).toJson = ofJson (.obj members) := by
  have kept := fun names => Json.kept_others names settled
  -- What an earlier kind would look at is among the other members, as it was.
  have same : ∀ names : List String, ∀ name ∉ names,
      Members.get? (Json.others names members) name = Members.get? members name :=
    fun names name unknown => Json.get?_others members unknown
  have read := isRead_ofJson settled
  generalize ofJson (.obj members) = event at read ⊢
  cases read with
  | setVariable reads =>
      obtain ⟨field, -, reads⟩ := Option.bind_eq_some_iff.1 reads
      exact ofJson_setVariable (Assignment.signed_of_ofJson? reads) (kept _)
  | shellCommand noVariable _ =>
      apply ofJson_shellCommand (kept _)
      rw [same _ _ (by decide), noVariable]
  | selectInputSource noVariable noCommand _ =>
      apply ofJson_selectInputSource (kept _)
      · rw [same _ _ (by decide), noVariable]
      · rw [same _ _ (by decide), noCommand]
  | key noVariable noCommand noSource reads =>
      have extra := KeyPress.extra_of_ofJson? settled reads
      apply ofJson_key
      · rw [extra]
        exact kept _
      · rw [extra, same _ _ (by decide), noVariable]
      · rw [extra, same _ _ (by decide), noCommand]
      · rw [extra, same _ _ (by decide), noSource]
  | raw noVariable noCommand noSource noPress =>
      exact (IsRead.raw noVariable noCommand noSource noPress).ofJson_eq settled

/-! ## Printable events -/

theorem faithful_setVariable {assignment : Assignment} {extra : Members Json}
    (signed : assignment.Signed) (others : Extra ["set_variable"] extra) :
    (Event.setVariable assignment extra).IsFaithful where
  printable := Json.printable_obj_iff.2
    (printableMembers_cons others (Assignment.faithful signed).printable)
  reads := congrArg some (ofJson_setVariable signed others.kept)

theorem faithful_shellCommand {command : String} {extra : Members Json}
    (others : Extra ["shell_command"] extra)
    (noVariable : (extra.get? "set_variable").bind Assignment.ofJson? = none) :
    (Event.shellCommand command extra).IsFaithful where
  printable := Json.printable_obj_iff.2 (printableMembers_cons others (.str command))
  reads := congrArg some (ofJson_shellCommand others.kept noVariable)

theorem faithful_selectInputSource {source : InputSource} {extra : Members Json}
    (others : Extra ["select_input_source"] extra)
    (noVariable : (extra.get? "set_variable").bind Assignment.ofJson? = none)
    (noCommand : (extra.get? "shell_command").bind Json.text? = none) :
    (Event.selectInputSource source extra).IsFaithful where
  printable := Json.printable_obj_iff.2
    (printableMembers_cons others source.faithful.printable)
  reads := congrArg some (ofJson_selectInputSource others.kept noVariable noCommand)

theorem faithful_key {press : KeyPress} (others : Extra KeyPress.fieldNames press.extra)
    (noVariable : (press.extra.get? "set_variable").bind Assignment.ofJson? = none)
    (noCommand : (press.extra.get? "shell_command").bind Json.text? = none)
    (noSource : (press.extra.get? "select_input_source").bind InputSource.ofJson? = none) :
    (Event.key press).IsFaithful where
  printable := (KeyPress.faithful others).printable
  reads := congrArg some (ofJson_key others.kept noVariable noCommand noSource)

/-- A value that no kind of event takes is passed through. -/
theorem faithful_raw {value : Json} (printable : value.Printable)
    (raw : ofJson value = .raw value) : (ofJson value).IsFaithful := by
  rw [raw]
  exact ⟨printable, congrArg some raw⟩

theorem printable_ofJson_obj {members : Members Json} (printable : PrintableMembers members) :
    (ofJson (.obj members)).toJson.Printable := by
  have settled := Json.settledMembers_of_printable printable
  have extra := fun names => Json.extra_others names printable
  have read := isRead_ofJson settled
  generalize ofJson (.obj members) = event at read ⊢
  cases read with
  | setVariable reads =>
      obtain ⟨field, -, reads⟩ := Option.bind_eq_some_iff.1 reads
      have signed := Assignment.signed_of_ofJson? reads
      exact (faithful_setVariable signed (extra _)).printable
  | shellCommand => exact Json.printable_obj_iff.2 (printableMembers_cons (extra _) (.str _))
  | @selectInputSource source =>
      exact Json.printable_obj_iff.2 (printableMembers_cons (extra _) source.faithful.printable)
  | key _ _ _ reads =>
      apply (KeyPress.faithful _).printable
      rw [KeyPress.extra_of_ofJson? settled reads]
      exact extra _
  | raw => exact Json.printable_obj_iff.2 printable

/-- An event that has been read from a printable value is read back. -/
theorem faithful_ofJson {value : Json} (printable : value.Printable) :
    (ofJson value).IsFaithful := by
  cases value with
  | obj members =>
      have among := Json.printable_obj_iff.1 printable
      exact ⟨printable_ofJson_obj among,
        congrArg some (ofJson_toJson_ofJson_obj (Json.settledMembers_of_printable among))⟩
  | _ => exact faithful_raw printable (ofJson_eq_raw (Json.settle_eq printable) nofun)

theorem faithful_set {value : Int} (name : String) (signed : Word.isSigned value = true) :
    (Event.set name value).IsFaithful :=
  faithful_setVariable ⟨signed, by simp⟩ (Json.extra_nil _)

theorem faithful_shell (command : String) : (Event.shell command).IsFaithful :=
  faithful_shellCommand (Json.extra_nil _) rfl

theorem faithful_select (source : InputSource) : (Event.select source).IsFaithful :=
  faithful_selectInputSource (Json.extra_nil _) rfl rfl

theorem faithful_chord (key : Key) (modifiers : List Modifier) :
    (Event.chord key modifiers).IsFaithful :=
  faithful_key (Json.extra_nil _) rfl rfl rfl

end Event

/-- The events of an action are read back. -/
theorem Action.faithful_encode (action : Action) :
    ∀ event ∈ action.encode, event.IsFaithful := by
  cases action with
  | sendChord chord => simpa [encode] using Event.faithful_chord _ _
  | runShell command => simpa [encode] using Event.faithful_shell _
  | openTarget target => simpa [encode] using Event.faithful_shell _
  | launchApp name => simpa [encode] using Event.faithful_shell _
  | selectInput source => simpa [encode] using Event.faithful_select _

end KeyLayers
