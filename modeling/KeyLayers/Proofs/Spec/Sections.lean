import KeyLayers.Proofs.Document.Rules
import KeyLayers.Proofs.Outcome
import KeyLayers.Proofs.Toml.Distinct
import KeyLayers.Spec.Section

/-!
# What a spec file passes through

Settings and rules are taken over from the tables of a spec file.  These have
distinct names and integers of 64 bits, so what is taken over can be written and
read back as far as its floating-point numbers can.
-/

namespace KeyLayers

/-! ## Tables as JSON -/

namespace Toml

mutual

/-- The floating-point numbers in a value. -/
def floats : Toml → List Binary64
  | .float number => [number]
  | .array items => floatsOfItems items
  | .table members => floatsOfMembers members
  | _ => []

def floatsOfItems : List Toml → List Binary64
  | [] => []
  | item :: rest => floats item ++ floatsOfItems rest

def floatsOfMembers : List (String × Toml) → List Binary64
  | [] => []
  | (_, value) :: rest => floats value ++ floatsOfMembers rest

end

theorem floatsOfItems_eq (items : List Toml) : floatsOfItems items = items.flatMap floats := by
  induction items with
  | nil => rfl
  | cons item rest ih => rw [floatsOfItems, ih, List.flatMap_cons]

theorem floatsOfMembers_eq (members : Members Toml) :
    floatsOfMembers members = members.flatMap fun member => floats member.2 := by
  induction members with
  | nil => rfl
  | cons entry rest ih => rw [floatsOfMembers, ih, List.flatMap_cons]

/-- Whether the names in a value are distinct and its numbers are read back. -/
structure Sound (value : Toml) : Prop where
  distinct : value.Distinct
  reads : ∀ number ∈ value.floats, number.ReadsBack

theorem sound_array_iff {items : List Toml} :
    Sound (.array items) ↔ ∀ item ∈ items, Sound item := by
  constructor
  · rintro ⟨_ | _ | _ | _ | _ | each, reads⟩ item member
    refine ⟨each item member, fun number among => reads number ?_⟩
    rw [floats, floatsOfItems_eq]
    exact List.mem_flatMap.2 ⟨item, member, among⟩
  · intro sound
    refine ⟨.array fun item member => (sound item member).distinct, ?_⟩
    intro number among
    rw [floats, floatsOfItems_eq] at among
    obtain ⟨item, member, among⟩ := List.mem_flatMap.1 among
    exact (sound item member).reads number among

theorem sound_table_iff {members : Members Toml} :
    Sound (.table members) ↔ Members.Each Sound members := by
  constructor
  · rintro ⟨_ | _ | _ | _ | _ | _ | ⟨distinct, each⟩, reads⟩
    refine ⟨distinct, fun member here => ⟨each member here, fun number among => reads number ?_⟩⟩
    rw [floats, floatsOfMembers_eq]
    exact List.mem_flatMap.2 ⟨member, here, among⟩
  · intro ⟨distinct, sound⟩
    refine ⟨.table distinct fun member here => (sound member here).distinct, ?_⟩
    intro number among
    rw [floats, floatsOfMembers_eq] at among
    obtain ⟨member, here, among⟩ := List.mem_flatMap.1 among
    exact (sound member here).reads number among

theorem allItemInts_iff {fits : Int → Bool} {items : List Toml} :
    allItemInts fits items = true ↔ ∀ item ∈ items, allInts fits item = true := by
  induction items with
  | nil => simp [allItemInts]
  | cons item rest ih => simp [allItemInts, ih]

theorem allMemberInts_iff {fits : Int → Bool} {members : Members Toml} :
    allMemberInts fits members = true ↔ ∀ member ∈ members, allInts fits member.2 = true := by
  induction members with
  | nil => simp [allMemberInts]
  | cons entry rest ih =>
      rw [allMemberInts, Bool.and_eq_true, ih, List.forall_mem_cons]

theorem itemsToJson_eq (items : List Toml) : itemsToJson items = items.map toJson := by
  induction items with
  | nil => rfl
  | cons item rest ih => rw [itemsToJson, ih, List.map_cons]

theorem membersToJson_eq (members : Members Toml) :
    membersToJson members = members.map fun member => (member.1, member.2.toJson) := by
  induction members with
  | nil => rfl
  | cons entry rest ih => rw [membersToJson, ih, List.map_cons]

/-- A sound value whose integers fit into words is printable as JSON. -/
theorem printable_toJson {fits : Int → Bool} {value : Toml} (sound : value.Sound)
    (ints : value.allInts fits = true)
    (words : ∀ n, fits n = true → (Word.isSigned n || Word.isUnsigned n) = true) :
    value.toJson.Printable := by
  have distinct := sound.distinct
  induction distinct with
  | str text => exact .str text
  | int value => exact .int (words value ints)
  | float number => exact .float (sound.reads number List.mem_cons_self)
  | bool value => exact .bool value
  | datetime text => exact .obj (by simp [Members.names]) (by simpa using .str text)
  | @array items each ih =>
      have parts := sound_array_iff.1 sound
      have fit := allItemInts_iff.1 ints
      rw [toJson, itemsToJson_eq]
      apply Json.Printable.arr
      intro json member
      obtain ⟨item, among, rfl⟩ := List.mem_map.1 member
      exact ih item among (parts item among) (fit item among)
  | @table members distinct each ih =>
      have parts := sound_table_iff.1 sound
      have fit := allMemberInts_iff.1 ints
      rw [toJson, membersToJson_eq]
      apply Json.Printable.obj
      · simpa [Members.names, Function.comp_def] using distinct
      · intro entry member
        obtain ⟨part, among, rfl⟩ := List.mem_map.1 member
        exact ih part among (parts.each part among) (fit part among)

theorem printable_of_isWide {value : Toml} (sound : value.Sound) (wide : value.isWide = true) :
    value.toJson.Printable :=
  printable_toJson sound wide fun _ fits => fits

theorem printable_of_isPlain {value : Toml} (sound : value.Sound) (plain : value.isPlain = true) :
    value.toJson.Printable :=
  printable_toJson sound plain fun n fits => by simp [fits]

end Toml

/-! ## Rules and settings -/

namespace Json

theorem fitMembers_eq (fields : List (String × Shape)) (members : List (String × Json)) :
    fitMembers fields members = members.map fun member =>
      (member.1, match fields.lookup member.1 with
        | some shape => fit shape member.2
        | none => member.2) := by
  induction members with
  | nil => rfl
  | cons entry rest ih =>
      rw [fitMembers, List.map_cons]
      exact congrArg (List.cons _) ih

theorem fitItems_eq (shape : Shape) (items : List Json) :
    fitItems shape items = items.map (fit shape) := by
  induction items with
  | nil => rfl
  | cons item rest ih => rw [fitItems, ih, List.map_cons]

theorem exists_of_mem_fitFields {shapes : List Shape} {items : List Json} {item : Json}
    (member : item ∈ fitFields shapes items) :
    ∃ other ∈ items, ∃ shape, item = fit shape other := by
  induction items generalizing shapes with
  | nil => cases member
  | cons first rest ih =>
      cases shapes with
      | nil => cases member
      | cons shape shapes =>
          rcases List.mem_cons.1 member with rfl | later
          · exact ⟨first, List.mem_cons_self, shape, rfl⟩
          · obtain ⟨other, among, same⟩ := ih later
            exact ⟨other, List.mem_cons_of_mem _ among, same⟩

/-- Leaving out superfluous items keeps a value printable. -/
theorem printable_fit {value : Json} (printable : value.Printable) (shape : Shape) :
    (fit shape value).Printable := by
  induction printable generalizing shape with
  | null => exact .null
  | bool value => exact .bool value
  | int fits => exact .int fits
  | float reads => exact .float reads
  | str text => exact .str text
  | arr printable ih =>
      cases shape with
      | whole => exact .arr printable
      | list shape =>
          rw [fit, fitItems_eq]
          apply Printable.arr
          intro item member
          obtain ⟨other, among, rfl⟩ := List.mem_map.1 member
          exact ih other among shape
      | record keepOthers fields =>
          apply Printable.arr
          intro item member
          obtain ⟨other, among, shape, rfl⟩ := exists_of_mem_fitFields member
          exact ih other among shape
  | obj distinct printable ih =>
      cases shape with
      | whole => exact .obj distinct printable
      | list shape => exact .obj distinct printable
      | record keepOthers fields =>
          rw [fit, fitMembers_eq]
          apply Printable.obj
          · simpa [Members.names, Function.comp_def] using distinct
          · intro entry member
            obtain ⟨other, among, rfl⟩ := List.mem_map.1 member
            simp only
            split
            · exact ih other among _
            · exact printable other among

end Json

namespace Spec

theorem regular_of_ruleOfToml? {value : Toml} {rule : Rule} (sound : value.Sound)
    (found : ruleOfToml? value = some rule) : rule.IsRegular := by
  simp only [ruleOfToml?, Option.ite_none_right_eq_some] at found
  obtain ⟨wide, read⟩ := found
  exact Rule.regular_of_ofJson?
    (Json.printable_fit (Toml.printable_of_isWide sound wide) ruleShape) read

theorem printable_of_globalOfToml? {value : Toml} {members : Members Json} (sound : value.Sound)
    (found : globalOfToml? value = some members) : Json.PrintableMembers members := by
  simp only [globalOfToml?, Option.ite_none_right_eq_some] at found
  obtain ⟨wide, read⟩ := found
  have printable := Toml.printable_of_isWide sound wide
  unfold Document.globalOfJson? at read
  split at read
  next members' same =>
    rw [same] at printable
    have among := Json.printable_obj_iff.1 printable
    rw [Json.settleObject_eq (Json.settledMembers_of_printable among)] at read
    cases read
    exact among
  next => cases read

end Spec

/-! ## Sections -/

namespace Toml

theorem sound_of_section? {names : List String} {required : Nat} {value : Toml}
    {fields : Members Toml} (sound : value.Sound)
    (found : value.section? names required = some fields) {name : String} {field : Toml}
    (here : fields.get? name = some field) : field.Sound := by
  have member := Members.mem_of_get? here
  cases value with
  | table members =>
      simp only [section?, Option.ite_none_right_eq_some, Option.some.injEq] at found
      obtain ⟨-, rfl⟩ := found
      exact (sound_table_iff.1 sound).each _ member
  | array items =>
      simp only [section?, Option.ite_none_right_eq_some, Option.some.injEq] at found
      obtain ⟨-, rfl⟩ := found
      exact sound_array_iff.1 sound _ (List.of_mem_zip member).2
  | _ => simp [section?] at found

theorem exists_of_list? {α : Type} {read : Toml → Option α} {value : Toml} {values : List α}
    (sound : value.Sound) (found : value.list? read = some values) {part : α}
    (member : part ∈ values) : ∃ item : Toml, item.Sound ∧ read item = some part := by
  cases value with
  | array items =>
      obtain ⟨item, among, reads⟩ := Json.mem_of_mapM found member
      exact ⟨item, sound_array_iff.1 sound item among, reads⟩
  | _ => simp [list?] at found

/-- Whether the entries of a table of layers are sound, with integers of signed words. -/
def SoundLayers (entries : Members Toml) : Prop :=
  ∀ entry ∈ entries, entry.2.Sound ∧ entry.2.isPlain = true

theorem soundLayers_of_layers? {value : Toml} {entries : Members Toml} (sound : value.Sound)
    (found : value.layers? = some entries) : SoundLayers entries := by
  simp only [layers?, Option.ite_none_right_eq_some] at found
  obtain ⟨plain, members⟩ := found
  cases value with
  | table members' =>
      cases members
      exact fun entry member => ⟨(sound_table_iff.1 sound).each entry member,
        allMemberInts_iff.1 plain entry member⟩
  | datetime text =>
      cases members
      rintro entry member
      cases List.mem_singleton.1 member
      exact ⟨⟨.str text, by simp [floats]⟩, rfl⟩
  | _ => simp [members?] at members

theorem soundLayers_of_fieldOr? {fields : Members Toml} {name : String} {entries : Members Toml}
    (sound : ∀ field, fields.get? name = some field → field.Sound)
    (found : fields.fieldOr? name layers? [] = some entries) : SoundLayers entries := by
  rcases Members.fieldOr?_eq_some found with ⟨field, here, read⟩ | rfl
  · exact soundLayers_of_layers? (sound field here) read
  · intro entry member
    cases member

end Toml

namespace Spec

/-- Whether everything that a spec file passes through can be written and read back. -/
structure Sound (spec : Spec) : Prop where
  global : Json.PrintableMembers spec.global
  rules : ∀ rule ∈ spec.rules, rule.IsRegular
  layers : Toml.SoundLayers spec.layers
  definitions : Toml.SoundLayers spec.definitions
  profiles : ∀ profile ∈ spec.profiles, Toml.SoundLayers profile.layers

theorem soundLayers_of_profile {value : Toml} {profile : ProfileSection} (sound : value.Sound)
    (found : ProfileSection.ofToml? value = some profile) : Toml.SoundLayers profile.layers := by
  simp only [ProfileSection.ofToml?, Option.bind_eq_bind, Option.bind_eq_some_iff,
    Option.pure_def, Option.some.injEq] at found
  obtain ⟨fields, section', name, -, selected, -, layers, entries, rfl⟩ := found
  exact Toml.soundLayers_of_fieldOr?
    (fun field here => Toml.sound_of_section? sound section' here) entries

theorem sound_of_ofToml? {members : Members Toml} {spec : Spec}
    (sound : (Toml.table members).Sound) (found : ofToml? members = some spec) : spec.Sound := by
  simp only [ofToml?, Option.bind_eq_bind, Option.bind_eq_some_iff, Option.pure_def,
    Option.some.injEq] at found
  obtain ⟨fields, section', output, -, global, settings, hyper, -, compile, -, rules, passed,
    layers, entries, definitions, bodies, profiles, listed, rfl⟩ := found
  have parts : ∀ {name : String} (field : Toml), fields.get? name = some field → field.Sound :=
    fun field here => Toml.sound_of_section? sound section' here
  constructor
  · rcases Members.fieldOr?_eq_some settings with ⟨field, here, read⟩ | rfl
    · exact printable_of_globalOfToml? (parts field here) read
    · exact Members.each_nil
  · intro rule member
    rcases Members.fieldOr?_eq_some passed with ⟨field, here, read⟩ | rfl
    · obtain ⟨item, sound, reads⟩ := Toml.exists_of_list? (parts field here) read member
      exact regular_of_ruleOfToml? sound reads
    · cases member
  · exact Toml.soundLayers_of_fieldOr? parts entries
  · exact Toml.soundLayers_of_fieldOr? parts bodies
  · intro profile member
    rcases Members.fieldOr?_eq_some listed with ⟨field, here, read⟩ | rfl
    · obtain ⟨item, sound, reads⟩ := Toml.exists_of_list? (parts field here) read member
      exact soundLayers_of_profile sound reads
    · cases member

/-- The floating-point numbers in the text of a spec file. -/
def floatsOf (text : String) : List Binary64 :=
  ((Toml.ofText? text).map Toml.floatsOfMembers).getD []

/-- A spec file whose floating-point numbers are read back is sound. -/
theorem sound_of_ofText {text : String} {spec : Spec} (found : ofText text = .ok spec)
    (reads : ∀ number ∈ floatsOf text, number.ReadsBack) : spec.Sound := by
  unfold ofText at found
  split at found
  next spec' read =>
    cases found
    obtain ⟨members, parsed, sections⟩ := Option.bind_eq_some_iff.1 read
    rw [floatsOf, parsed] at reads
    exact sound_of_ofToml? ⟨Toml.distinct_of_ofText? parsed, reads⟩ sections
  next =>
    cases table : plainTable text with
    | error error =>
        rw [table] at found
        cases found
    | ok members =>
        rw [table] at found
        cases found

end Spec

end KeyLayers
