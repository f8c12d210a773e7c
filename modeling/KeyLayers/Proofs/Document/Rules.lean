import KeyLayers.Document
import KeyLayers.Proofs.Document.Displaced

/-!
# Rules and documents are read back

A document is written as nested records.  Each of them is read back if its parts
are, and has no member that its reader skips; so the only thing that can go
wrong with the text of a whole document is that it is nested too deeply.
-/

namespace KeyLayers

open Json (Faithful Extra PrintableMembers Fits)

/-! ## Conditions -/

namespace Condition

/-- Whether the value that a condition compares with fits into a signed word. -/
def Signed (condition : Condition) : Prop :=
  Word.isSigned condition.comparedValue = true

/-- The fields of a condition. -/
def slots (condition : Condition) : List (String × Option Json) :=
  ("type", some (.str condition.tag)) ::
    match condition with
    | variableIf name value | variableUnless name value =>
        [("name", some (.str name)), ("value", some (.int value))]
    | frontmostIf patterns | frontmostUnless patterns =>
        [("bundle_identifiers", some (.arr (patterns.map .str)))]

theorem toJson_eq (condition : Condition) :
    condition.toJson = .obj (Json.present condition.slots) := by
  cases condition <;> rfl

theorem faithful {condition : Condition} (signed : condition.Signed) :
    Faithful ofJson? toJson condition := by
  constructor
  · rw [toJson_eq]
    apply Json.printable_present
    · cases condition <;> simp [slots]
    · cases condition with
      | variableIf name value | variableUnless name value =>
          simp only [slots, List.forall_mem_cons]
          exact ⟨Json.printable_some (.str _), Json.printable_some (.str _),
            Json.printable_some (Json.faithful_int signed).printable, by simp⟩
      | frontmostIf patterns | frontmostUnless patterns =>
          have texts := Json.faithful_list fun pattern (_ : pattern ∈ patterns) =>
            Json.faithful_text pattern
          simp only [slots, List.forall_mem_cons]
          exact ⟨Json.printable_some (.str _), Json.printable_some texts.printable, by simp⟩
  · cases condition with
    | variableIf name value | variableUnless name value =>
        have fits : Word.isSigned value = true := signed
        simp [toJson, tag, ofJson?, ofTagged?, Json.known?, Json.others, Json.record?,
          Members.field?, Members.names, Members.get?, Json.text?, Json.int?, fits]
    | frontmostIf patterns | frontmostUnless patterns =>
        have texts := Json.faithful_list fun pattern (_ : pattern ∈ patterns) =>
          Json.faithful_text pattern
        simp [toJson, tag, ofJson?, ofTagged?, Json.known?, Json.others, Json.record?,
          Members.field?, Members.names, Members.get?, Json.text?, texts.reads]

theorem signed_of_ofTagged? {tag : String} {value : Json} {condition : Condition}
    (found : ofTagged? tag value = some condition) : condition.Signed := by
  unfold ofTagged? at found
  simp only [Option.bind_eq_bind, Option.pure_def] at found
  split at found
  case h_1 | h_2 =>
    simp only [Option.bind_eq_some_iff, Option.some.injEq] at found
    obtain ⟨fields, -, name, -, number, here, rfl⟩ := found
    simp only [Members.field?, Option.bind_eq_some_iff] at here
    obtain ⟨field, -, reads⟩ := here
    exact Json.signed_of_int? reads
  case h_3 | h_4 =>
    simp only [Option.bind_eq_some_iff, Option.some.injEq] at found
    obtain ⟨fields, -, patterns, -, rfl⟩ := found
    exact (by decide : Word.isSigned 0 = true)
  case h_5 => cases found

theorem signed_of_ofJson? {value : Json} {condition : Condition}
    (found : ofJson? value = some condition) : condition.Signed := by
  unfold ofJson? at found
  split at found
  next members =>
    simp only [Option.bind_eq_bind, Option.bind_eq_some_iff] at found
    obtain ⟨fields, -, tag, -, tagged⟩ := found
    exact signed_of_ofTagged? tagged
  next tag fields => exact signed_of_ofTagged? found
  next => cases found

end Condition

/-! ## Inputs -/

namespace FromModifiers

/-- The fields of the modifiers of an input. -/
def slots (modifiers : FromModifiers) : List (String × Option Json) :=
  [("mandatory", Json.listField Modifier.toJson modifiers.mandatory),
    ("optional", Json.listField Modifier.toJson modifiers.optional)]

theorem toJson_eq (modifiers : FromModifiers) :
    modifiers.toJson = .obj (Json.present modifiers.slots) := by
  obtain ⟨mandatory, optional⟩ := modifiers
  cases mandatory <;> cases optional <;> rfl

theorem faithful (modifiers : FromModifiers) : Faithful ofJson? toJson modifiers := by
  have distinct : (modifiers.slots.map Prod.fst).Nodup := by simp [slots]
  have each : ∀ list : List Modifier, ∀ modifier ∈ list,
      Faithful Modifier.ofJson? Modifier.toJson modifier :=
    fun _ modifier _ => modifier.faithful
  rw [Json.faithful_iff, toJson_eq]
  constructor
  · apply Json.printable_present distinct
    simp only [slots, List.forall_mem_cons]
    exact ⟨Json.printable_listField fun _ member => (each _ _ member).printable,
      Json.printable_listField fun _ member => (each _ _ member).printable, by simp⟩
  · have fields : Json.record? ["mandatory", "optional"] _ = _ := Json.record?_written distinct
    have mandatory : Members.fieldOr? (Json.present modifiers.slots) "mandatory" _ [] = _ :=
      Json.fieldOr?_list distinct rfl (each modifiers.mandatory)
    have optional : Members.fieldOr? (Json.present modifiers.slots) "optional" _ [] = _ :=
      Json.fieldOr?_list distinct rfl (each modifiers.optional)
    simp [ofJson?, fields, mandatory, optional]

theorem fits_shape (modifiers : FromModifiers) :
    Fits (.record false [("mandatory", .whole), ("optional", .whole)]) modifiers.toJson := by
  rw [toJson_eq]
  apply Json.fits_present
  simp only [slots, List.forall_mem_cons]
  exact ⟨fun value _ => ⟨.whole, rfl, Json.fits_whole value⟩,
    fun value _ => ⟨.whole, rfl, Json.fits_whole value⟩, by simp⟩

end FromModifiers

namespace FromEvent

/-- The fields of an input. -/
def slots (input : FromEvent) : List (String × Option Json) :=
  [("key_code", some input.key.toJson), ("modifiers", input.modifiers.map FromModifiers.toJson)]

theorem toJson_eq (input : FromEvent) :
    input.toJson = .obj (Json.present input.slots) := by
  obtain ⟨key, modifiers⟩ := input
  cases modifiers <;> rfl

theorem faithful (input : FromEvent) : Faithful ofJson? toJson input := by
  have distinct : (input.slots.map Prod.fst).Nodup := by simp [slots]
  have each : ∀ modifiers ∈ input.modifiers,
      Faithful FromModifiers.ofJson? FromModifiers.toJson modifiers :=
    fun modifiers _ => modifiers.faithful
  rw [Json.faithful_iff, toJson_eq]
  constructor
  · apply Json.printable_present distinct
    simp only [slots, List.forall_mem_cons]
    exact ⟨Json.printable_some input.key.faithful.printable, Json.printable_option each, by simp⟩
  · have fields : Json.record? ["key_code", "modifiers"] _ = _ := Json.record?_written distinct
    have key : Members.field? (Json.present input.slots) "key_code" Key.ofJson? = _ :=
      (Json.field?_present distinct rfl).trans input.key.faithful.reads
    have modifiers : Members.fieldOr? (Json.present input.slots) "modifiers" _ none = _ :=
      Json.fieldOr?_option distinct rfl each (by simp [FromModifiers.toJson])
    simp [ofJson?, fields, key, modifiers]

theorem fits_shape (input : FromEvent) :
    Fits (.record false
      [("key_code", .whole),
        ("modifiers", .record false [("mandatory", .whole), ("optional", .whole)])])
      input.toJson := by
  rw [toJson_eq]
  apply Json.fits_present
  simp only [slots, List.forall_mem_cons]
  refine ⟨fun value _ => ⟨.whole, rfl, Json.fits_whole value⟩, ?_, by simp⟩
  intro value member
  obtain ⟨modifiers, -, rfl⟩ := Option.map_eq_some_iff.1 member
  exact ⟨_, rfl, modifiers.fits_shape⟩

end FromEvent

/-! ## Manipulators -/

theorem map_eq_self_iff {α : Type} {f : α → α} {items : List α} :
    items.map f = items ↔ ∀ item ∈ items, f item = item := by
  constructor
  · intro same
    rw [← List.map_id items, List.map_map] at same
    simpa using List.map_inj_left.1 same
  · intro same
    rw [List.map_congr_left same, List.map_id']

/-- Items with events are read again as themselves if their events are. -/
theorem map_reread_eq_iff {α : Type} {again : α → α} {events : α → List Event} {items : List α}
    (each : ∀ item, again item = item ↔ ∀ event ∈ events item, event.reread = event) :
    items.map again = items ↔ ∀ event ∈ items.flatMap events, event.reread = event := by
  simp only [map_eq_self_iff, each, List.mem_flatMap]
  constructor
  · rintro same event ⟨item, member, among⟩
    exact same item member event among
  · exact fun same item member event among => same event ⟨item, member, among⟩

namespace Manipulator

/-- The fields of a manipulator. -/
def slots (manipulator : Manipulator) : List (String × Option Json) :=
  [("type", some (.str "basic")), ("description", manipulator.description.map .str),
    ("from", some manipulator.from_.toJson),
    ("to", Json.listField Event.toJson manipulator.onPress),
    ("to_if_alone", Json.listField Event.toJson manipulator.ifAlone),
    ("to_after_key_up", Json.listField Event.toJson manipulator.onRelease),
    ("conditions", Json.listField Condition.toJson manipulator.conditions)]

theorem listMember_eq {α : Type} (name : String) (write : α → Json) (values : List α) :
    listMember name write values =
      ((Json.listField write values).map fun field => (name, field)).toList := by
  unfold listMember Json.listField
  split <;> rfl

theorem toJson_eq (manipulator : Manipulator) :
    manipulator.toJson = .obj (Json.present manipulator.slots ++ manipulator.extra) := by
  simp [toJson, slots, listMember_eq, Option.map_map, Function.comp_def]

/-- The manipulator with the events that are read from what is written for its own. -/
def reread (manipulator : Manipulator) : Manipulator :=
  { manipulator with
    onPress := manipulator.onPress.map Event.reread
    ifAlone := manipulator.ifAlone.map Event.reread
    onRelease := manipulator.onRelease.map Event.reread }

/-- What makes a manipulator one that is read again. -/
structure IsWritable (manipulator : Manipulator) : Prop where
  events : ∀ event ∈ manipulator.events, event.toJson.Printable
  conditions : ∀ condition ∈ manipulator.conditions, condition.Signed
  extra : Extra fieldNames manipulator.extra

/-- What makes a manipulator one that is read back. -/
structure IsRegular (manipulator : Manipulator) : Prop where
  events : ∀ event ∈ manipulator.events, event.IsFaithful
  conditions : ∀ condition ∈ manipulator.conditions, condition.Signed
  extra : Extra fieldNames manipulator.extra

theorem IsRegular.isWritable {manipulator : Manipulator} (regular : manipulator.IsRegular) :
    manipulator.IsWritable where
  events event member := (regular.events event member).printable
  conditions := regular.conditions
  extra := regular.extra

theorem reread_eq_iff {manipulator : Manipulator} :
    manipulator.reread = manipulator ↔
      ∀ event ∈ manipulator.events, event.reread = event := by
  obtain ⟨description, input, onPress, ifAlone, onRelease, conditions, extra⟩ := manipulator
  simp [reread, events, map_eq_self_iff, or_imp, forall_and]

theorem IsRegular.reread_eq {manipulator : Manipulator} (regular : manipulator.IsRegular) :
    manipulator.reread = manipulator :=
  reread_eq_iff.2 fun event member => (regular.events event member).reread_eq

theorem IsWritable.printable {manipulator : Manipulator} (writable : manipulator.IsWritable) :
    manipulator.toJson.Printable := by
  have distinct : (manipulator.slots.map Prod.fst).Nodup := by simp [slots]
  have text : ∀ text ∈ manipulator.description, Faithful Json.text? .str text :=
    fun text _ => Json.faithful_text text
  have events : ∀ {list : List Event}, list ⊆ manipulator.events →
      ∀ event ∈ list, event.toJson.Printable :=
    fun among event member => writable.events event (among member)
  have gates : ∀ condition ∈ manipulator.conditions, condition.toJson.Printable :=
    fun condition member => (Condition.faithful (writable.conditions condition member)).printable
  rw [toJson_eq]
  apply Json.printable_written distinct writable.extra
  simp only [slots, List.forall_mem_cons]
  exact ⟨Json.printable_some (.str _), Json.printable_option text,
    Json.printable_some manipulator.from_.faithful.printable,
    Json.printable_listField (events fun event member => by simp [Manipulator.events, member]),
    Json.printable_listField (events fun event member => by simp [Manipulator.events, member]),
    Json.printable_listField (events fun event member => by simp [Manipulator.events, member]),
    Json.printable_listField gates, by simp⟩

theorem IsWritable.reads {manipulator : Manipulator} (writable : manipulator.IsWritable) :
    ofJson? manipulator.toJson = some manipulator.reread := by
  have distinct : (manipulator.slots.map Prod.fst).Nodup := by simp [slots]
  have text : ∀ text ∈ manipulator.description, Faithful Json.text? .str text :=
    fun text _ => Json.faithful_text text
  have events : ∀ {name : String} {list : List Event},
      manipulator.slots.lookup name = some (Json.listField Event.toJson list) →
      Members.fieldOr? (Json.present manipulator.slots) name
        (Json.list? fun value => some (Event.ofJson value)) [] = some (list.map Event.reread) :=
    fun here => Json.fieldOr?_listField distinct Event.reread here fun _ _ => rfl
  have gates : ∀ condition ∈ manipulator.conditions,
      Faithful Condition.ofJson? Condition.toJson condition :=
    fun condition member => Condition.faithful (writable.conditions condition member)
  rw [toJson_eq]
  have opened : Json.openRecord? fieldNames _ = _ :=
    Json.openRecord?_written distinct writable.extra.kept
  have kind : Members.fieldOr? (Json.present manipulator.slots) "type" isBasic? () = _ :=
    Json.fieldOr?_present distinct rfl
  have description : Members.fieldOr? (Json.present manipulator.slots) "description" _ none = _ :=
    Json.fieldOr?_option distinct rfl text (by simp)
  have input : Members.field? (Json.present manipulator.slots) "from" FromEvent.ofJson? = _ :=
    (Json.field?_present distinct rfl).trans manipulator.from_.faithful.reads
  have pressed : Members.fieldOr? (Json.present manipulator.slots) "to" _ [] = _ :=
    events rfl
  have alone : Members.fieldOr? (Json.present manipulator.slots) "to_if_alone" _ [] = _ :=
    events rfl
  have released : Members.fieldOr? (Json.present manipulator.slots) "to_after_key_up" _ [] = _ :=
    events rfl
  have conditions : Members.fieldOr? (Json.present manipulator.slots) "conditions" _ [] = _ :=
    Json.fieldOr?_list distinct rfl gates
  simp [ofJson?, opened, kind, isBasic?, Json.variant?, description, input, pressed, alone,
    released, conditions, reread]

/-- Every event of a manipulator is read from a value inside the one of the manipulator. -/
theorem exists_of_mem_events {value : Json} {manipulator : Manipulator}
    (found : ofJson? value = some manipulator) {event : Event}
    (member : event ∈ manipulator.events) :
    ∃ item : Json, item.Within value ∧ Event.ofJson item = event := by
  simp only [ofJson?, Option.bind_eq_bind, Option.bind_eq_some_iff, Option.pure_def,
    Option.some.injEq] at found
  obtain ⟨⟨fields, extra⟩, opened, -, -, description, -, input, -, onPress, pressed, ifAlone, alone,
    onRelease, released, conditions, -, rfl⟩ := found
  have events : ∀ {name : String} {list : List Event},
      fields.fieldOr? name (Json.list? fun value => some (Event.ofJson value)) [] =
        some list →
      event ∈ list → ∃ item : Json, item.Within value ∧ Event.ofJson item = event := by
    intro name list found member
    rcases Members.of_fieldOr? found with ⟨field, here, read⟩ | rfl
    · obtain ⟨item, isPart, reads⟩ := Json.of_list? read member
      exact ⟨item, isPart.within.trans (Json.isPart_of_openRecord? opened here).within,
        Option.some.inj reads⟩
    · cases member
  simp only [Manipulator.events, List.mem_append] at member
  rcases member with (member | member) | member
  · exact events pressed member
  · exact events alone member
  · exact events released member

/-- Every manipulator that has been read can be written. -/
theorem isWritable_of_ofJson? {value : Json} {manipulator : Manipulator}
    (exact : value.Exact) (found : ofJson? value = some manipulator) :
    manipulator.IsWritable where
  events event member := by
    obtain ⟨item, within, rfl⟩ := exists_of_mem_events found member
    exact (Event.isWritable_ofJson (exact.within within)).printable
  conditions condition member := by
    simp only [ofJson?, Option.bind_eq_bind, Option.bind_eq_some_iff, Option.pure_def,
      Option.some.injEq] at found
    obtain ⟨⟨fields, extra⟩, -, -, -, description, -, input, -, onPress, -, ifAlone, -,
      onRelease, -, conditions, gates, rfl⟩ := found
    rcases Members.of_fieldOr? gates with ⟨field, -, read⟩ | rfl
    · obtain ⟨item, -, reads⟩ := Json.of_list? read member
      exact Condition.signed_of_ofJson? reads
    · cases member
  extra := by
    simp only [ofJson?, Option.bind_eq_bind, Option.bind_eq_some_iff, Option.pure_def,
      Option.some.injEq] at found
    obtain ⟨⟨fields, extra⟩, opened, -, -, description, -, input, -, onPress, -, ifAlone, -,
      onRelease, -, conditions, -, rfl⟩ := found
    exact Json.extra_of_openRecord? exact opened

/-- A manipulator that has been read from a printable value is read back. -/
theorem regular_of_ofJson? {value : Json} {manipulator : Manipulator}
    (printable : value.Printable) (found : ofJson? value = some manipulator) :
    manipulator.IsRegular where
  events event member := by
    obtain ⟨item, within, rfl⟩ := exists_of_mem_events found member
    exact Event.faithful_ofJson (printable.within within)
  conditions := (isWritable_of_ofJson? printable.exact found).conditions
  extra := (isWritable_of_ofJson? printable.exact found).extra

/-- Reading a document looks at everything that is written for a manipulator. -/
theorem fits_shape {manipulator : Manipulator} (writable : manipulator.IsWritable) :
    Fits Document.manipulatorShape manipulator.toJson := by
  rw [toJson_eq]
  apply Json.fits_record
  · intro member _ kept
    cases kept
  · rintro ⟨name, value⟩ member shape here
    by_cases input : name = "from"
    · subst input
      cases here
      rcases List.mem_append.1 member with field | other
      · have same : value = manipulator.from_.toJson := by
          simpa [slots] using Json.mem_present.1 field
        rw [same]
        exact manipulator.from_.fits_shape
      · exact absurd (by decide) (writable.extra.apart "from" (List.mem_map_of_mem other))
    · have different : (name == "from") = false := beq_eq_false_iff_ne.2 input
      simp [List.lookup_cons, different] at here

end Manipulator

/-! ## Rules -/

namespace Rule

/-- The fields of a rule. -/
def slots (rule : Rule) : List (String × Option Json) :=
  [("description", some (.str rule.description)),
    ("manipulators", some (.arr (rule.manipulators.map Manipulator.toJson)))]

/-- The rule with the manipulators that are read from what is written for its own. -/
def reread (rule : Rule) : Rule :=
  { rule with manipulators := rule.manipulators.map Manipulator.reread }

/-- Every event of a rule. -/
def events (rule : Rule) : List Event :=
  rule.manipulators.flatMap Manipulator.events

/-- What makes a rule one that is read again. -/
def IsWritable (rule : Rule) : Prop :=
  ∀ manipulator ∈ rule.manipulators, manipulator.IsWritable

/-- What makes a rule one that is read back. -/
def IsRegular (rule : Rule) : Prop :=
  ∀ manipulator ∈ rule.manipulators, manipulator.IsRegular

theorem IsRegular.isWritable {rule : Rule} (regular : rule.IsRegular) : rule.IsWritable :=
  fun manipulator member => (regular manipulator member).isWritable

theorem reread_eq_iff {rule : Rule} :
    rule.reread = rule ↔ ∀ event ∈ rule.events, event.reread = event := by
  rw [events, ← map_reread_eq_iff fun _ => Manipulator.reread_eq_iff, reread]
  cases rule
  simp

theorem IsRegular.reread_eq {rule : Rule} (regular : rule.IsRegular) : rule.reread = rule := by
  have same := map_eq_self_iff.2 fun manipulator member => (regular manipulator member).reread_eq
  rw [reread, same]

theorem IsWritable.printable {rule : Rule} (writable : rule.IsWritable) :
    rule.toJson.Printable := by
  have distinct : (rule.slots.map Prod.fst).Nodup := by simp [slots]
  have manipulators := Json.printable_list fun manipulator member =>
    (writable manipulator member).printable
  show Json.Printable (.obj (Json.present rule.slots))
  apply Json.printable_present distinct
  simp only [slots, List.forall_mem_cons]
  exact ⟨Json.printable_some (.str _), Json.printable_some manipulators, by simp⟩

theorem IsWritable.reads {rule : Rule} (writable : rule.IsWritable) :
    ofJson? rule.toJson = some rule.reread := by
  have distinct : (rule.slots.map Prod.fst).Nodup := by simp [slots]
  have manipulators := Json.list?_written Manipulator.reread fun manipulator member =>
    (writable manipulator member).reads
  show ofJson? (.obj (Json.present rule.slots)) = some rule.reread
  have fields : Json.record? ["description", "manipulators"] _ = _ :=
    Json.record?_written distinct
  have description : Members.field? (Json.present rule.slots) "description" Json.text? = _ :=
    Json.field?_present distinct rfl
  have list : Members.field? (Json.present rule.slots) "manipulators" _ = _ :=
    (Json.field?_present distinct rfl).trans manipulators
  simp [ofJson?, fields, description, Json.text?, list, reread]

/-- Reading a document looks at everything that is written for a rule. -/
theorem fits_shape {rule : Rule} (writable : rule.IsWritable) :
    Fits
      (.record false
        [("description", .whole), ("manipulators", .list Document.manipulatorShape)])
      rule.toJson := by
  show Fits _ (.obj (Json.present rule.slots))
  apply Json.fits_present
  simp only [slots, List.forall_mem_cons]
  refine ⟨fun value _ => ⟨.whole, rfl, Json.fits_whole value⟩, ?_, by simp⟩
  rintro value ⟨⟩
  refine ⟨_, rfl, Json.fits_list ?_⟩
  intro item member
  obtain ⟨manipulator, among, rfl⟩ := List.mem_map.1 member
  exact Manipulator.fits_shape (writable manipulator among)

/-- Every manipulator of a rule is read from a value inside the one of the rule. -/
theorem exists_of_mem_manipulators {value : Json} {rule : Rule}
    (found : ofJson? value = some rule) {manipulator : Manipulator}
    (member : manipulator ∈ rule.manipulators) :
    ∃ item : Json, item.Within value ∧ Manipulator.ofJson? item = some manipulator := by
  simp only [ofJson?, Option.bind_eq_bind, Option.bind_eq_some_iff, Option.pure_def,
    Option.some.injEq] at found
  obtain ⟨fields, opened, description, -, manipulators, list, rfl⟩ := found
  obtain ⟨field, here, read⟩ := Members.of_field? list
  obtain ⟨item, isPart, reads⟩ := Json.of_list? read member
  exact ⟨item, isPart.within.trans (Json.isPart_of_record? opened here).within, reads⟩

theorem regular_of_ofJson? {value : Json} {rule : Rule} (printable : value.Printable)
    (found : ofJson? value = some rule) : rule.IsRegular := by
  intro manipulator member
  obtain ⟨item, within, reads⟩ := exists_of_mem_manipulators found member
  exact Manipulator.regular_of_ofJson? (printable.within within) reads

end Rule

/-! ## Profiles and documents -/

namespace Profile

/-- Writes the rules of a profile, which stand in a record of their own. -/
def rulesToJson (rules : List Rule) : Json :=
  .obj (Json.present [("rules", some (.arr (rules.map Rule.toJson)))])

theorem printable_rules {rules : List Rule} (writable : ∀ rule ∈ rules, rule.IsWritable) :
    (rulesToJson rules).Printable := by
  have list := Json.printable_list fun rule member => (writable rule member).printable
  apply Json.printable_present (by simp)
  simp only [List.forall_mem_cons]
  exact ⟨Json.printable_some list, by simp⟩

theorem reads_rules {rules : List Rule} (writable : ∀ rule ∈ rules, rule.IsWritable) :
    rulesOfJson? (rulesToJson rules) = some (rules.map Rule.reread) := by
  have distinct : ([("rules", some (Json.arr (rules.map Rule.toJson)))].map Prod.fst).Nodup := by
    simp
  have fields : Json.record? ["rules"] _ = _ := Json.record?_written distinct
  simp only [rulesOfJson?, rulesToJson, fields, Option.bind_eq_bind, Option.bind_some]
  exact (Json.fieldOr?_present distinct rfl).trans
    (Json.list?_written Rule.reread fun rule member => (writable rule member).reads)

/-- The fields of a profile. -/
def slots (profile : Profile) : List (String × Option Json) :=
  [("name", some (.str profile.name)), ("selected", profile.selected.map .bool),
    ("complex_modifications", some (rulesToJson profile.rules))]

theorem toJson_eq (profile : Profile) :
    profile.toJson = .obj (Json.present profile.slots) := by
  obtain ⟨name, selected, rules⟩ := profile
  cases selected <;> rfl

/-- The profile with the rules that are read from what is written for its own. -/
def reread (profile : Profile) : Profile :=
  { profile with rules := profile.rules.map Rule.reread }

/-- Every event of a profile. -/
def events (profile : Profile) : List Event :=
  profile.rules.flatMap Rule.events

/-- What makes a profile one that is read again. -/
def IsWritable (profile : Profile) : Prop :=
  ∀ rule ∈ profile.rules, rule.IsWritable

/-- What makes a profile one that is read back. -/
def IsRegular (profile : Profile) : Prop :=
  ∀ rule ∈ profile.rules, rule.IsRegular

theorem IsRegular.isWritable {profile : Profile} (regular : profile.IsRegular) :
    profile.IsWritable :=
  fun rule member => Rule.IsRegular.isWritable (regular rule member)

theorem reread_eq_iff {profile : Profile} :
    profile.reread = profile ↔ ∀ event ∈ profile.events, event.reread = event := by
  rw [events, ← map_reread_eq_iff fun _ => Rule.reread_eq_iff, reread]
  cases profile
  simp

theorem IsRegular.reread_eq {profile : Profile} (regular : profile.IsRegular) :
    profile.reread = profile := by
  have same := map_eq_self_iff.2 fun rule member => Rule.IsRegular.reread_eq (regular rule member)
  rw [reread, same]

theorem IsWritable.printable {profile : Profile} (writable : profile.IsWritable) :
    profile.toJson.Printable := by
  have distinct : (profile.slots.map Prod.fst).Nodup := by simp [slots]
  have selected : ∀ value ∈ profile.selected, Faithful Json.bool? .bool value :=
    fun value _ => Json.faithful_bool value
  rw [toJson_eq]
  apply Json.printable_present distinct
  simp only [slots, List.forall_mem_cons]
  exact ⟨Json.printable_some (.str _), Json.printable_option selected,
    Json.printable_some (printable_rules writable), by simp⟩

theorem IsWritable.reads {profile : Profile} (writable : profile.IsWritable) :
    ofJson? profile.toJson = some profile.reread := by
  have distinct : (profile.slots.map Prod.fst).Nodup := by simp [slots]
  have selected : ∀ value ∈ profile.selected, Faithful Json.bool? .bool value :=
    fun value _ => Json.faithful_bool value
  rw [toJson_eq]
  have fields : Json.record? ["name", "selected", "complex_modifications"] _ = _ :=
    Json.record?_written distinct
  have name : Members.field? (Json.present profile.slots) "name" Json.text? = _ :=
    Json.field?_present distinct rfl
  have chosen : Members.fieldOr? (Json.present profile.slots) "selected" _ none = _ :=
    Json.fieldOr?_option distinct rfl selected (by simp)
  have modifications : Members.fieldOr? (Json.present profile.slots) "complex_modifications"
      rulesOfJson? [] = _ :=
    (Json.fieldOr?_present distinct rfl).trans (reads_rules writable)
  simp [ofJson?, fields, name, Json.text?, chosen, modifications, reread]

/-- The shape of a profile in a document. -/
def shape : Json.Shape :=
  .record false
    [("name", .whole), ("selected", .whole),
      ("complex_modifications", .record false
        [("rules", .list (.record false
          [("description", .whole), ("manipulators", .list Document.manipulatorShape)]))])]

theorem fits_shape {profile : Profile} (writable : profile.IsWritable) :
    Fits shape profile.toJson := by
  rw [toJson_eq]
  apply Json.fits_present
  simp only [slots, List.forall_mem_cons]
  refine ⟨fun value _ => ⟨.whole, rfl, Json.fits_whole value⟩,
    fun value _ => ⟨.whole, rfl, Json.fits_whole value⟩, ?_, by simp⟩
  rintro value ⟨⟩
  refine ⟨_, rfl, Json.fits_present ?_⟩
  simp only [List.forall_mem_cons]
  refine ⟨?_, by simp⟩
  rintro value ⟨⟩
  refine ⟨_, rfl, Json.fits_list ?_⟩
  intro item member
  obtain ⟨rule, among, rfl⟩ := List.mem_map.1 member
  exact Rule.fits_shape (writable rule among)

end Profile

namespace Document

/-- The fields of a document. -/
def slots (document : Document) : List (String × Option Json) :=
  [("global", some (.obj document.global)),
    ("profiles", some (.arr (document.profiles.map Profile.toJson)))]

/-- The document that is read from what is written for a document. -/
def reread (document : Document) : Document :=
  { document with profiles := document.profiles.map Profile.reread }

/-- Every event of a document. -/
def events (document : Document) : List Event :=
  document.profiles.flatMap Profile.events

/-- What makes a document one that is read again. -/
structure IsWritable (document : Document) : Prop where
  global : PrintableMembers document.global
  profiles : ∀ profile ∈ document.profiles, profile.IsWritable

/-- What makes a document one that is read back. -/
structure IsRegular (document : Document) : Prop where
  global : PrintableMembers document.global
  profiles : ∀ profile ∈ document.profiles, profile.IsRegular

theorem IsRegular.isWritable {document : Document} (regular : document.IsRegular) :
    document.IsWritable where
  global := regular.global
  profiles profile member := Profile.IsRegular.isWritable (regular.profiles profile member)

theorem reread_eq_iff {document : Document} :
    document.reread = document ↔ ∀ event ∈ document.events, event.reread = event := by
  rw [events, ← map_reread_eq_iff fun _ => Profile.reread_eq_iff, reread]
  cases document
  simp

theorem IsRegular.reread_eq {document : Document} (regular : document.IsRegular) :
    document.reread = document := by
  have same := map_eq_self_iff.2 fun profile member =>
    Profile.IsRegular.reread_eq (regular.profiles profile member)
  rw [reread, same]

theorem IsWritable.printable {document : Document} (writable : document.IsWritable) :
    document.toJson.Printable := by
  have distinct : (document.slots.map Prod.fst).Nodup := by simp [slots]
  have profiles := Json.printable_list fun profile member =>
    (writable.profiles profile member).printable
  show Json.Printable (.obj (Json.present document.slots))
  apply Json.printable_present distinct
  simp only [slots, List.forall_mem_cons]
  exact ⟨Json.printable_some (Json.printable_obj_iff.2 writable.global),
    Json.printable_some profiles, by simp⟩

theorem IsWritable.reads {document : Document} (writable : document.IsWritable) :
    ofJson? document.toJson = some document.reread := by
  have distinct : (document.slots.map Prod.fst).Nodup := by simp [slots]
  have profiles := Json.list?_written Profile.reread fun profile member =>
    (writable.profiles profile member).reads
  show ofJson? (.obj (Json.present document.slots)) = some document.reread
  have fields : Json.record? ["global", "profiles"] _ = _ := Json.record?_written distinct
  have global : Members.fieldOr? (Json.present document.slots) "global" globalOfJson? [] = _ :=
    Json.fieldOr?_present distinct rfl
  have list : Members.fieldOr? (Json.present document.slots) "profiles" _ [] = _ :=
    (Json.fieldOr?_present distinct rfl).trans profiles
  have settled := Json.settledMembers_of_printable writable.global
  simp [ofJson?, fields, global, globalOfJson?, Json.settleObject_eq settled, list, reread]

theorem fits_shape {document : Document} (writable : document.IsWritable) :
    Fits shape document.toJson := by
  show Fits _ (.obj (Json.present document.slots))
  apply Json.fits_present
  simp only [slots, List.forall_mem_cons]
  refine ⟨fun value _ => ⟨.whole, rfl, Json.fits_whole value⟩, ?_, by simp⟩
  rintro value ⟨⟩
  refine ⟨.list Profile.shape, rfl, Json.fits_list ?_⟩
  intro item member
  obtain ⟨profile, among, rfl⟩ := List.mem_map.1 member
  exact Profile.fits_shape (writable.profiles profile among)

/--
The text of a document has the value that is written for it, and is refused if
its arrays and objects are nested more deeply than a reader follows them.
-/
theorem IsWritable.ofText_text {document : Document} (writable : document.IsWritable) :
    ofText document.text =
      if document.toJson.depth ≤ Json.greatestDepth then .ok document.reread
      else .error .syntaxError := by
  have structured : Json.Source.ofText? document.text = some (Json.source document.toJson) :=
    Json.ofText?_pretty writable.printable
  have whole : (Json.source document.toJson).prune shape = Json.source document.toJson :=
    fits_shape writable
  rw [ofText, structured]
  simp only [whole, Json.eval?_source writable.printable]
  by_cases shallow : document.toJson.depth ≤ Json.greatestDepth
  · simp [shallow, writable.reads]
  · simp [shallow]

/--
The text of a regular document is read back as that document, unless its
arrays and objects are nested more deeply than a reader follows them.
-/
theorem ofText_text {document : Document} (regular : document.IsRegular) :
    ofText document.text =
      if document.toJson.depth ≤ Json.greatestDepth then .ok document
      else .error .syntaxError := by
  rw [regular.isWritable.ofText_text, regular.reread_eq]

end Document

end KeyLayers
