import KeyLayers.Proofs.Document.Displaced
import KeyLayers.Validation

/-!
# Key codes of accepted events

Whatever its kind, an event may be written with a text as its key code.  A key press has a key of
the vocabulary there, and the check of a raw event looks the text up.  An event without a key keeps
the member beside its own field, and no check sees it.

So in an accepted list every key code spells a key, except those beside the fields of events
without a key, about which acceptance says nothing (`Event.known_keys_exact`).
-/

namespace KeyLayers

namespace Members

/-- Whether every text that is given as a key code spells a key. -/
def NamesKnownKey (members : Members Json) : Prop :=
  ∀ name, ("key_code", Json.str name) ∈ members → ∃ key, Key.parse name = .ok key

theorem namesKnownKey_nil : NamesKnownKey [] :=
  fun _ member => nomatch member

theorem namesKnownKey_cons_other {name : String} {value : Json} {rest : Members Json}
    (other : name ≠ "key_code") :
    NamesKnownKey ((name, value) :: rest) ↔ NamesKnownKey rest := by
  simp [NamesKnownKey, Ne.symm other]

theorem namesKnownKey_append {front rest : Members Json} :
    NamesKnownKey (front ++ rest) ↔ NamesKnownKey front ∧ NamesKnownKey rest := by
  simp [NamesKnownKey, or_imp, forall_and]

theorem namesKnownKey_of_not_mem {members : Members Json} (absent : "key_code" ∉ members.names) :
    NamesKnownKey members :=
  fun _ member => (absent (List.mem_map.2 ⟨_, member, rfl⟩)).elim

end Members

/-- The key code that is written for a key press is the name of its key. -/
theorem KeyPress.namesKnownKey_present (press : KeyPress) :
    Members.NamesKnownKey (Json.present press.slots) := by
  intro name member
  have named : Json.str name = press.key.toJson := by
    simpa [slots] using Json.mem_present.1 member
  cases named
  exact ⟨press.key, press.key.parse_name⟩

namespace Event

/-- The members at the top level of what is written for an event. -/
def written (event : Event) : Members Json :=
  match event.toJson with
  | .obj members => members
  | _ => []

/-- The members that an event without a key has beside its field. -/
def beside : Event → Members Json
  | setVariable _ extra | shellCommand _ extra | selectInputSource _ extra => extra
  | key _ | raw _ => []

/-- An event, with other members beside its field if it is one without a key. -/
def withBeside (extra : Members Json) : Event → Event
  | setVariable assignment _ => .setVariable assignment extra
  | shellCommand command _ => .shellCommand command extra
  | selectInputSource source _ => .selectInputSource source extra
  | key press => .key press
  | raw value => .raw value

theorem check_withBeside (event : Event) (extra : Members Json) :
    (event.withBeside extra).check = event.check := by
  cases event <;> rfl

theorem written_key (press : KeyPress) :
    (key press).written = Json.present press.slots ++ press.extra := by
  rw [written, toJson, press.toJson_eq]

/-! ## Members that are read -/

/-- No member is written twice for an event that is read. -/
theorem distinct_ofJson (value : Json) : (ofJson value).written.names.Nodup := by
  have beside : ∀ {name : String} {fields extra : Members Json},
      value.openRecord? [name] = some (fields, extra) → (name :: extra.names).Nodup := by
    intro name fields extra opened
    refine List.nodup_cons.2 ⟨?_, Json.distinct_of_openRecord? opened⟩
    exact fun member => Json.apart_of_openRecord? opened name member (.head _)
  apply ofJson_cases (motive := fun event => event.written.names.Nodup)
  · intro event found
    obtain ⟨fields, extra, assignment, opened, -, rfl⟩ := ofField?_eq_some found
    exact beside opened
  · intro event found
    obtain ⟨fields, extra, command, opened, -, rfl⟩ := ofField?_eq_some found
    exact beside opened
  · intro event found
    obtain ⟨fields, extra, source, opened, -, rfl⟩ := ofField?_eq_some found
    exact beside opened
  · intro press found
    obtain ⟨fields, opened⟩ := KeyPress.openRecord?_of_ofJson? found
    have others : Members.Each (fun _ => True) press.extra :=
      ⟨Json.distinct_of_openRecord? opened, fun _ _ => trivial⟩
    rw [written_key]
    exact (Json.each_written press.distinct_slots others (Json.apart_of_openRecord? opened)
      fun _ _ _ _ => trivial).distinct
  · cases value with
    | obj members => exact Json.distinct_settleObject members
    | float number =>
        rw [Json.settle]
        split
        · exact List.nodup_nil
        · exact List.nodup_nil
    | _ => exact List.nodup_nil

/-! ## Accepted events -/

/-- A key press that repeats no member has no other key code than that of its key. -/
theorem namesKnownKey_written_key {press : KeyPress}
    (distinct : (key press).written.names.Nodup) : (key press).written.NamesKnownKey := by
  rw [written_key, Members.names_append, List.nodup_append] at distinct
  rw [written_key, Members.namesKnownKey_append]
  refine ⟨press.namesKnownKey_present, Members.namesKnownKey_of_not_mem ?_⟩
  exact fun member => distinct.2.2 "key_code" (.head _) "key_code" member rfl

/-- The key code of a raw event that is accepted spells a key. -/
theorem namesKnownKey_of_checkKeyCode {members : Members Json} (distinct : members.names.Nodup)
    (accepted : checkKeyCode (.obj members) = .ok ()) : members.NamesKnownKey := by
  intro name member
  rw [checkKeyCode, Members.get?_of_mem distinct member] at accepted
  dsimp only at accepted
  split at accepted
  next key found => exact ⟨key, found⟩
  next => cases accepted

theorem namesKnownKey_written_iff {event : Event} (distinct : event.written.names.Nodup)
    (accepted : event.check = .ok ()) :
    event.written.NamesKnownKey ↔ event.beside.NamesKnownKey := by
  cases event with
  | setVariable | shellCommand | selectInputSource =>
      exact Members.namesKnownKey_cons_other (by decide)
  | key press =>
      exact iff_of_true (namesKnownKey_written_key distinct) Members.namesKnownKey_nil
  | raw value =>
      refine iff_of_true ?_ Members.namesKnownKey_nil
      cases value with
      | obj members => exact namesKnownKey_of_checkKeyCode distinct accepted
      | _ => exact Members.namesKnownKey_nil

/--
In an accepted list of events a key code spells a key exactly if it does so where it stands beside
the field of an event without a key.  The check sees nothing of the members there: whatever is put
in their place is accepted with the same fields.
-/
theorem known_keys_exact {events : List Event}
    (distinct : ∀ event ∈ events, event.written.names.Nodup)
    (accepted : checkEvents events = .ok ()) :
    (∀ event ∈ events, event.written.NamesKnownKey ↔ event.beside.NamesKnownKey) ∧
      ∀ extra : Event → Members Json,
        checkEvents (events.map fun event => event.withBeside (extra event)) = .ok () := by
  rw [checkEvents, checkAll_eq_ok_iff] at accepted
  constructor
  · intro event member
    exact namesKnownKey_written_iff (distinct event member) (accepted event member)
  · intro extra
    rw [checkEvents, checkAll_eq_ok_iff]
    intro other member
    rcases List.mem_map.1 member with ⟨event, among, rfl⟩
    rw [check_withBeside]
    exact accepted event among

end Event

namespace Sample

/-- A command with a key code beside it. -/
def keyedCommand (name : String) : Json :=
  .obj [("shell_command", .str "true"), ("key_code", .str name)]

/-- A key press that is not modelled, one in another spelling and a command with a key code. -/
def keyedEvents : List Json :=
  [.obj [("key_code", .str " ESC "), ("modifiers", .str "any")],
    .obj [("key_code", .str "Enter"), ("halt", .bool true)],
    keyedCommand "f1"]

theorem ofJson_keyedEvents :
    keyedEvents.map Event.ofJson =
      [.raw (.obj [("key_code", .str " ESC "), ("modifiers", .str "any")]),
        .key ⟨⟨"return_or_enter", by decide⟩, [], false, [("halt", .bool true)]⟩,
        .shellCommand "true" [("key_code", .str "f1")]] := by
  decide +kernel

theorem keyedEvents_known :
    (∀ event ∈ keyedEvents.map Event.ofJson, event.written.names.Nodup) ∧
      checkEvents (keyedEvents.map Event.ofJson) = .ok () ∧
      (∀ event ∈ keyedEvents.map Event.ofJson, event.written.NamesKnownKey) ∧
      checkEvents ((keyedEvents.map Event.ofJson).map
        (Event.withBeside [("key_code", .str "banana")])) = .ok () := by
  have distinct : ∀ event ∈ keyedEvents.map Event.ofJson, event.written.names.Nodup := by
    rw [List.forall_mem_map]
    exact fun value _ => Event.distinct_ofJson value
  have accepted : checkEvents (keyedEvents.map Event.ofJson) = .ok () := by decide +kernel
  have spelled : ∃ key, Key.parse "f1" = .ok key := ⟨⟨"f1", by decide⟩, by decide +kernel⟩
  have beside : ∀ event ∈ keyedEvents.map Event.ofJson, event.beside.NamesKnownKey := by
    rw [ofJson_keyedEvents]
    simp only [List.forall_mem_cons]
    refine ⟨Members.namesKnownKey_nil, Members.namesKnownKey_nil, ?_, by simp⟩
    intro name member
    cases List.mem_singleton.1 member
    exact spelled
  rcases Event.known_keys_exact distinct accepted with ⟨known, unseen⟩
  exact ⟨distinct, accepted, fun event member => (known event member).2 (beside event member),
    unseen fun _ => [("key_code", .str "banana")]⟩

/-- An event of each kind without a key, with an unknown key beside its field. -/
def strayKeys : List Json :=
  [.obj [("set_variable", .obj [("name", .str "vim_mode"), ("value", .int 1)]),
      ("key_code", .str "banana")],
    keyedCommand "banana",
    .obj [("select_input_source", .obj [("language", .str "en")]), ("key_code", .str "banana")]]

/-- Three events that are accepted, and no key has the name that they are written with. -/
theorem strayKeys_accepted :
    checkEvents (strayKeys.map Event.ofJson) = .ok () ∧
      (∀ value ∈ strayKeys, ("key_code", .str "banana") ∈ (Event.ofJson value).written) ∧
      Key.parse "banana" = .error (.unknownKey "banana") := by
  refine ⟨by decide +kernel, by decide +kernel, by decide +kernel⟩

end Sample

end KeyLayers
