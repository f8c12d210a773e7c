import KeyLayers.Proofs.Document.Depth

/-!
# Reading a document and writing it back

A text that is read as a document is read as one again when it has been written
back: what is written is printable and within the limit of nesting.  But the
second document need not be the first.  Every event is read again on its own
(`Document.reread`), and the displaced ones among them become events of another
kind.

So the two documents are equal exactly if no event is displaced, which is so if
the text repeats no member of an object; and in any case a second round changes
nothing any more (`Document.rereading`).
-/

namespace KeyLayers

/-! ## Where the parts of a document are read from -/

theorem Rule.isWritable_of_ofJson? {value : Json} {rule : Rule} (exact : value.Exact)
    (found : ofJson? value = some rule) : rule.IsWritable := by
  intro manipulator member
  obtain ⟨item, within, reads⟩ := exists_of_mem_manipulators found member
  exact Manipulator.isWritable_of_ofJson? (exact.within within) reads

/-- Every rule of a profile is read from a value inside the one of the profile. -/
theorem Profile.exists_of_mem_rules {value : Json} {profile : Profile}
    (found : ofJson? value = some profile) {rule : Rule} (member : rule ∈ profile.rules) :
    ∃ item : Json, item.Within value ∧ Rule.ofJson? item = some rule := by
  simp only [ofJson?, Option.bind_eq_bind, Option.bind_eq_some_iff, Option.pure_def,
    Option.some.injEq] at found
  obtain ⟨fields, opened, name, -, selected, -, rules, modified, rfl⟩ := found
  rcases Members.of_fieldOr? modified with ⟨record, here, read⟩ | rfl
  · simp only [rulesOfJson?, Option.bind_eq_bind, Option.bind_eq_some_iff] at read
    obtain ⟨inner, entered, list⟩ := read
    rcases Members.of_fieldOr? list with ⟨field, there, read⟩ | rfl
    · obtain ⟨item, isPart, reads⟩ := Json.of_list? read member
      exact ⟨item, (isPart.within.trans (Json.isPart_of_record? entered there).within).trans
        (Json.isPart_of_record? opened here).within, reads⟩
    · cases member
  · cases member

namespace Document

/-- Every profile of a document is read from a value inside the one of the document. -/
theorem exists_of_mem_profiles {value : Json} {document : Document}
    (found : ofJson? value = some document) {profile : Profile}
    (member : profile ∈ document.profiles) :
    ∃ item : Json, item.Within value ∧ Profile.ofJson? item = some profile := by
  simp only [ofJson?, Option.bind_eq_bind, Option.bind_eq_some_iff, Option.pure_def,
    Option.some.injEq] at found
  obtain ⟨fields, opened, global, -, profiles, list, rfl⟩ := found
  rcases Members.of_fieldOr? list with ⟨field, here, read⟩ | rfl
  · obtain ⟨item, isPart, reads⟩ := Json.of_list? read member
    exact ⟨item, isPart.within.trans (Json.isPart_of_record? opened here).within, reads⟩
  · cases member

theorem printable_global {value : Json} {document : Document} (exact : value.Exact)
    (found : ofJson? value = some document) : Json.PrintableMembers document.global := by
  simp only [ofJson?, Option.bind_eq_bind, Option.bind_eq_some_iff, Option.pure_def,
    Option.some.injEq] at found
  obtain ⟨fields, opened, global, settings, profiles, -, rfl⟩ := found
  rcases Members.of_fieldOr? settings with ⟨field, here, read⟩ | rfl
  · cases field with
    | obj members =>
        cases read
        apply Json.printable_settleObject
        intro member among
        have isPart : member.2.IsPart (.obj members) := ⟨_, among⟩
        exact exact.within (isPart.within.trans (Json.isPart_of_record? opened here).within)
    | _ => cases read
  · exact Members.each_nil

/-- Every document that has been read can be written. -/
theorem isWritable_of_ofJson? {value : Json} {document : Document} (exact : value.Exact)
    (found : ofJson? value = some document) : document.IsWritable where
  global := printable_global exact found
  profiles profile member rule among := by
    obtain ⟨item, inDocument, read⟩ := exists_of_mem_profiles found member
    obtain ⟨part, inProfile, reads⟩ := Profile.exists_of_mem_rules read among
    exact Rule.isWritable_of_ofJson? (exact.within (inProfile.trans inDocument)) reads

/-- Every event of a document is read from a value inside the one of the document. -/
theorem exists_of_mem_events {value : Json} {document : Document}
    (found : ofJson? value = some document) {event : Event} (member : event ∈ document.events) :
    ∃ item : Json, item.Within value ∧ Event.ofJson item = event := by
  simp only [events, Profile.events, Rule.events, List.mem_flatMap] at member
  obtain ⟨profile, inDocument, rule, inProfile, manipulator, inRule, member⟩ := member
  obtain ⟨first, withinDocument, read⟩ := exists_of_mem_profiles found inDocument
  obtain ⟨second, withinProfile, read⟩ := Profile.exists_of_mem_rules read inProfile
  obtain ⟨third, withinRule, read⟩ := Rule.exists_of_mem_manipulators read inRule
  obtain ⟨item, within, same⟩ := Manipulator.exists_of_mem_events read member
  exact ⟨item, ((within.trans withinRule).trans withinProfile).trans withinDocument, same⟩

/-! ## Writing and reading again -/

/-- A document that has been read from a value is written and then read event by event. -/
theorem ofText_text_of_ofJson? {value : Json} {document : Document} (exact : value.Exact)
    (within : value.depth ≤ Json.greatestDepth) (found : ofJson? value = some document) :
    ofText document.text = .ok document.reread := by
  have shallow : document.toJson.depth ≤ Json.greatestDepth :=
    (Document.shallow found).trans (max_le within (by decide))
  rw [(isWritable_of_ofJson? exact found).ofText_text, if_pos shallow]

theorem reread_reread {value : Json} {document : Document} (exact : value.Exact)
    (found : ofJson? value = some document) : document.reread.reread = document.reread := by
  have writable := isWritable_of_ofJson? exact found
  rw [reread_eq_iff]
  intro event member
  obtain ⟨item, within, rfl⟩ := exists_of_mem_events writable.reads member
  exact (Event.faithful_ofJson (writable.printable.within within)).reread_eq

/-- The value of what the reader of a document looks at in a text. -/
def value? (text : String) : Option Json :=
  (Json.Source.ofText? text).bind fun source =>
    (source.prune shape).eval? Json.greatestDepth

/-- The floating-point numbers that are read from a text. -/
def floatsOf (text : String) : List Binary64 :=
  match value? text with
  | some value => value.floats
  | none => []

/-- Whether no object that is read from a text has two members of one name. -/
def RepeatsNothing (text : String) : Prop :=
  ∀ value, value? text = some value → value.Unrepeated

theorem ofText_eq_ok_iff {text : String} {document : Document} :
    ofText text = .ok document ↔
      ∃ value, value? text = some value ∧ ofJson? value = some document := by
  rw [ofText, value?, ← Option.bind_eq_some_iff]
  cases Json.Source.ofText? text with
  | none => simp
  | some source =>
      simp only [Option.bind_some]
      cases ((source.prune shape).eval? Json.greatestDepth).bind ofJson? with
      | some found => simp
      | none =>
          constructor
          · intro read
            dsimp only at read
            split at read
            · cases read
            · cases read
          · intro found
            cases found

theorem exact_of_value? {text : String} {value : Json} (valued : value? text = some value)
    (floats : ∀ number ∈ floatsOf text, number.ReadsBack) :
    value.Exact ∧ value.depth ≤ Json.greatestDepth := by
  obtain ⟨source, -, evaluated⟩ := Option.bind_eq_some_iff.1 valued
  have bounds := Json.evaluated_of_eval? _ evaluated
  rw [floatsOf, valued] at floats
  exact ⟨⟨bounds.ints, fun number within => floats number within.mem_floats⟩, bounds.depth⟩

/--
A text that is read as a document is read again when it has been written back,
and a second round changes nothing any more.  The first one changes nothing
either exactly if no event changes its kind, which is so exactly if no event is
displaced, and always if no object of the text repeats a member.
-/
theorem rereading
    {text : String}
    {document : Document}
    (read : ofText text = .ok document)
    (floats : ∀ number ∈ floatsOf text, number.ReadsBack) :
    ofText document.text = .ok document.reread ∧
    ofText document.reread.text = .ok document.reread ∧
    (document.reread = document ↔
      ∀ event ∈ document.events, event.reread.kind = event.kind) ∧
    (∀ event ∈ document.events, event.reread.kind = event.kind ↔ ¬ event.IsDisplaced) ∧
    (RepeatsNothing text → document.reread = document) := by
  obtain ⟨value, valued, found⟩ := ofText_eq_ok_iff.1 read
  obtain ⟨exact, nested⟩ := exact_of_value? valued floats
  have writable := isWritable_of_ofJson? exact found
  have events : ∀ event ∈ document.events, event.IsWritable := by
    intro event member
    obtain ⟨item, within, rfl⟩ := exists_of_mem_events found member
    exact Event.isWritable_ofJson (exact.within within)
  have shallow : document.toJson.depth ≤ Json.greatestDepth :=
    (Document.shallow found).trans (max_le nested (by decide))
  refine ⟨ofText_text_of_ofJson? exact nested found, ?_, ?_, ?_, ?_⟩
  · rw [ofText_text_of_ofJson? writable.printable.exact shallow writable.reads,
      reread_reread exact found]
  · rw [reread_eq_iff]
    refine forall₂_congr fun event member => ?_
    rw [(events event member).reread_eq_iff, (events event member).kind_reread_eq_iff]
  · exact fun event member => (events event member).kind_reread_eq_iff
  · intro unrepeated
    rw [reread_eq_iff]
    intro event member
    obtain ⟨item, within, rfl⟩ := exists_of_mem_events found member
    have printable := exact.printable (unrepeated value valued)
    exact (Event.faithful_ofJson (printable.within within)).reread_eq

end Document

/-! ## A document that is not read back -/

namespace Sample

/-- A document with one event, which repeats its key. -/
def stutter : Json :=
  let event : Json := .obj [("key_code", .str "a"), ("key_code", .str "b")]
  let manipulator : Json :=
    .obj [("from", .obj [("key_code", .str "t")]), ("to", .arr [event])]
  let rule : Json := .obj [("description", .str "Rule"), ("manipulators", .arr [manipulator])]
  let profile : Json := .obj [("name", .str "Default"),
    ("complex_modifications", .obj [("rules", .arr [rule])])]
  .obj [("global", .obj [("share", .float (.zero false))]), ("profiles", .arr [profile])]

/-- The document with the one event that is given. -/
def stutterDocument (event : Event) : Document where
  global := [("share", .float (.zero false))]
  profiles := [⟨"Default", none,
    [⟨"Rule", [{ from_ := ⟨⟨"t", by decide⟩, none⟩, onPress := [event] }]⟩]⟩]

/-- No kind of event takes the repeated key; the last one is kept. -/
def stutterRead : Document :=
  stutterDocument (.raw (.obj [("key_code", .str "b")]))

set_option maxRecDepth 20000 in
theorem run_stutter :
    Json.run [] .value (Json.write .tight 0 stutter) = some (Json.source stutter) := by
  with_unfolding_all rfl

theorem source_stutter : Json.Source.ofText? stutter.compact = some (Json.source stutter) := by
  rw [Json.Source.ofText?, Json.compact, String.toList_ofList, run_stutter]

theorem value_stutter : Document.value? stutter.compact = some stutter := by
  rw [Document.value?, source_stutter]
  decide +kernel

theorem ofJson_stutter : Document.ofJson? stutter = some stutterRead := by decide +kernel

theorem ofText_stutter : Document.ofText stutter.compact = .ok stutterRead :=
  Document.ofText_eq_ok_iff.2 ⟨stutter, value_stutter, ofJson_stutter⟩

theorem reads_stutter : ∀ number ∈ Document.floatsOf stutter.compact, number.ReadsBack := by
  have floats : Document.floatsOf stutter.compact = [.zero false] := by
    rw [Document.floatsOf, value_stutter]
    rfl
  have reads : Json.ofText? (String.ofList (Json.writeFloat (.zero false))) =
      some (.float (.zero false)) := by decide +kernel
  rw [floats]
  exact List.forall_mem_singleton.2 reads

theorem stutter_rereading :
    Document.ofText stutter.compact = .ok stutterRead ∧
      (∀ number ∈ Document.floatsOf stutter.compact, number.ReadsBack) ∧
      Document.ofText stutterRead.text = .ok stutterRead.reread ∧
      Document.ofText stutterRead.reread.text = .ok stutterRead.reread := by
  obtain ⟨again, stable, -⟩ := Document.rereading ofText_stutter reads_stutter
  exact ⟨ofText_stutter, reads_stutter, again, stable⟩

/-- What is kept is a key press when it is read again. -/
theorem stutter_changes_kind :
    Document.ofText stutter.compact = .ok stutterRead ∧
      (∀ number ∈ Document.floatsOf stutter.compact, number.ReadsBack) ∧
      stutterRead.events.map Event.kind = ["Raw"] ∧
      ∃ again, Document.ofText stutterRead.text = .ok again ∧
        again.events.map Event.kind = ["Key"] ∧ again ≠ stutterRead := by
  obtain ⟨exact, nested⟩ := Document.exact_of_value? value_stutter reads_stutter
  have again := Document.ofText_text_of_ofJson? exact nested ofJson_stutter
  exact ⟨ofText_stutter, reads_stutter, rfl, _, again, by decide +kernel, by decide +kernel⟩

end Sample

end KeyLayers
