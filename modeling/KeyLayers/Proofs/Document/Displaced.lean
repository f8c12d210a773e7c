import KeyLayers.Proofs.Document.Events
import KeyLayers.Proofs.Json.Settle

/-!
# Events that are read again

An object that repeats a member with a field is refused by the kind of event
that has the field, and may then be taken by a later kind or by none.  What is
kept of it is settled, so the repetition is gone from what is written, and the
kind that refused the object takes it when it is read again.

Such an event is displaced (`Event.IsDisplaced`): among the members that are
written for it are some that an earlier kind reads.  Every other event is read
again as itself (`Event.reread_eq_iff`), and a displaced one becomes an event of
another kind (`Event.kind_reread_eq_iff`) that is not displaced any more.
-/

namespace KeyLayers

open Json (Extra PrintableMembers)

theorem KeyPress.openRecord?_of_ofJson? {value : Json} {press : KeyPress}
    (found : ofJson? value = some press) :
    ∃ fields, value.openRecord? fieldNames = some (fields, press.extra) := by
  simp only [ofJson?, Option.bind_eq_bind, Option.bind_eq_some_iff, Option.pure_def,
    Option.some.injEq] at found
  obtain ⟨⟨fields, extra⟩, opened, key, -, modifiers, -, isLazy, -, rfl⟩ := found
  exact ⟨fields, opened⟩

namespace Event

/-- The event that is read from what is written for an event. -/
def reread (event : Event) : Event :=
  ofJson event.toJson

/-- An event with a field is read from the field and the settled other members. -/
theorem ofField?_eq_some {α : Type} {name : String} {read : Json → Option α}
    {make : α → Members Json → Event} {value : Json} {event : Event}
    (found : ofField? name read make value = some event) :
    ∃ fields extra result, value.openRecord? [name] = some (fields, extra) ∧
      fields.field? name read = some result ∧ event = make result extra := by
  simp only [ofField?, Option.bind_eq_bind, Option.bind_eq_some_iff, Option.pure_def,
    Option.some.injEq] at found
  obtain ⟨⟨fields, extra⟩, opened, result, reads, rfl⟩ := found
  exact ⟨fields, extra, result, opened, reads, rfl⟩

/-- An event that is read is of one of the kinds, tried in order, or is raw. -/
theorem ofJson_cases {motive : Event → Prop} (value : Json)
    (setVariable : ∀ event,
      ofField? "set_variable" Assignment.ofJson? .setVariable value = some event → motive event)
    (shellCommand : ∀ event,
      ofField? "shell_command" Json.text? .shellCommand value = some event → motive event)
    (selectInputSource : ∀ event,
      ofField? "select_input_source" InputSource.ofJson? .selectInputSource value = some event →
        motive event)
    (key : ∀ press, KeyPress.ofJson? value = some press → motive (.key press))
    (raw : motive (.raw value.settle)) : motive (ofJson value) := by
  rw [ofJson]
  cases first : ofField? "set_variable" Assignment.ofJson? .setVariable value with
  | some event => exact setVariable event first
  | none =>
      cases second : ofField? "shell_command" Json.text? .shellCommand value with
      | some event => exact shellCommand event second
      | none =>
          cases third : ofField? "select_input_source" InputSource.ofJson? .selectInputSource
              value with
          | some event => exact selectInputSource event third
          | none =>
              cases fourth : KeyPress.ofJson? value with
              | some press => exact key press fourth
              | none => exact raw

/-! ## What can be written -/

/-- Whether the other members of an event are settled and have none of its fields. -/
inductive IsWritable : Event → Prop where
  | setVariable {assignment : Assignment} {extra : Members Json} (signed : assignment.Signed)
      (others : Extra ["set_variable"] extra) : IsWritable (.setVariable assignment extra)
  | shellCommand {command : String} {extra : Members Json}
      (others : Extra ["shell_command"] extra) : IsWritable (.shellCommand command extra)
  | selectInputSource {source : InputSource} {extra : Members Json}
      (others : Extra ["select_input_source"] extra) : IsWritable (.selectInputSource source extra)
  | key {press : KeyPress} (others : Extra KeyPress.fieldNames press.extra) :
      IsWritable (.key press)
  | raw {value : Json} (printable : value.Printable) : IsWritable (.raw value)

/-- Every event that is read from a value can be written. -/
theorem isWritable_ofJson {value : Json} (exact : value.Exact) : (ofJson value).IsWritable := by
  apply ofJson_cases
  · intro event found
    obtain ⟨fields, extra, assignment, opened, reads, rfl⟩ := ofField?_eq_some found
    obtain ⟨field, -, reads⟩ := Members.of_field? reads
    exact .setVariable (Assignment.signed_of_ofJson? reads)
      (Json.extra_of_openRecord? exact opened)
  · intro event found
    obtain ⟨fields, extra, command, opened, -, rfl⟩ := ofField?_eq_some found
    exact .shellCommand (Json.extra_of_openRecord? exact opened)
  · intro event found
    obtain ⟨fields, extra, source, opened, -, rfl⟩ := ofField?_eq_some found
    exact .selectInputSource (Json.extra_of_openRecord? exact opened)
  · intro press found
    obtain ⟨fields, opened⟩ := KeyPress.openRecord?_of_ofJson? found
    exact .key (Json.extra_of_openRecord? exact opened)
  · exact .raw (Json.printable_settle exact)

theorem IsWritable.printable {event : Event} (writable : event.IsWritable) :
    event.toJson.Printable := by
  cases writable with
  | setVariable signed others =>
      exact Json.printable_obj_iff.2
        (printableMembers_cons others (Assignment.faithful signed).printable)
  | shellCommand others =>
      exact Json.printable_obj_iff.2 (printableMembers_cons others (.str _))
  | selectInputSource others =>
      exact Json.printable_obj_iff.2
        (printableMembers_cons others (InputSource.faithful _).printable)
  | key others => exact (KeyPress.faithful others).printable
  | raw printable => exact printable

theorem IsFaithful.reread_eq {event : Event} (faithful : event.IsFaithful) :
    event.reread = event :=
  Option.some.inj faithful.reads

/-! ## Displaced events -/

/-- Whether some members are read as the assignment of a variable. -/
def HasVariable (members : Members Json) : Prop :=
  ((members.get? "set_variable").bind Assignment.ofJson?).isSome

/-- Whether some members are read as a shell command. -/
def HasCommand (members : Members Json) : Prop :=
  ((members.get? "shell_command").bind Json.text?).isSome

/-- Whether some members are read as an input source. -/
def HasSource (members : Members Json) : Prop :=
  ((members.get? "select_input_source").bind InputSource.ofJson?).isSome

/-- Whether an event has other members that an earlier kind reads, or a raw one that any does. -/
def IsDisplaced : Event → Prop
  | .setVariable _ _ => False
  | .shellCommand _ extra => HasVariable extra
  | .selectInputSource _ extra => HasVariable extra ∨ HasCommand extra
  | .key press => HasVariable press.extra ∨ HasCommand press.extra ∨ HasSource press.extra
  | .raw value => ∃ members, value = .obj members ∧
      (HasVariable members ∨ HasCommand members ∨ HasSource members ∨
        (KeyPress.ofJson? value).isSome)

/-- The place of the kind of an event among the kinds, in the order in which they are tried. -/
def rank : Event → Nat
  | .setVariable _ _ => 0
  | .shellCommand _ _ => 1
  | .selectInputSource _ _ => 2
  | .key _ => 3
  | .raw _ => 4

theorem rank_eq_of_kind_eq {left right : Event} (same : left.kind = right.kind) :
    left.rank = right.rank := by
  cases left <;> cases right <;> first | rfl | simp [kind] at same

section

variable {members : List (String × Json)} {event : Event}

theorem IsRead.rank_eq (read : IsRead members event) (has : HasVariable members) :
    event.rank = 0 := by
  rw [HasVariable] at has
  cases read with
  | setVariable => rfl
  | shellCommand noVariable | selectInputSource noVariable | key noVariable | raw noVariable =>
      rw [noVariable] at has
      cases has

theorem IsRead.rank_le_one (read : IsRead members event) (has : HasCommand members) :
    event.rank ≤ 1 := by
  rw [HasCommand] at has
  cases read with
  | setVariable | shellCommand => simp [rank]
  | selectInputSource _ noCommand | key _ noCommand | raw _ noCommand =>
      rw [noCommand] at has
      cases has

theorem IsRead.rank_le_two (read : IsRead members event) (has : HasSource members) :
    event.rank ≤ 2 := by
  rw [HasSource] at has
  cases read with
  | setVariable | shellCommand | selectInputSource => simp [rank]
  | key _ _ noSource | raw _ _ noSource =>
      rw [noSource] at has
      cases has

theorem IsRead.rank_le_three (read : IsRead members event)
    (has : (KeyPress.ofJson? (.obj members)).isSome) : event.rank ≤ 3 := by
  cases read with
  | setVariable | shellCommand | selectInputSource | key => simp [rank]
  | raw _ _ _ noPress =>
      rw [noPress] at has
      cases has

/-- What the members of a printable object are read as. -/
theorem isRead_of_printable (printable : Json.Printable (.obj members)) :
    IsRead members (ofJson (.obj members)) :=
  isRead_ofJson (Json.settledMembers_of_printable (Json.printable_obj_iff.1 printable))

end

/-- An event that is not displaced is read back from what is written for it. -/
theorem IsWritable.faithful {event : Event} (writable : event.IsWritable)
    (inPlace : ¬ event.IsDisplaced) : event.IsFaithful := by
  cases writable with
  | setVariable signed others => exact faithful_setVariable signed others
  | shellCommand others =>
      rw [IsDisplaced, HasVariable, Option.not_isSome_iff_eq_none] at inPlace
      exact faithful_shellCommand others inPlace
  | selectInputSource others =>
      simp only [IsDisplaced, HasVariable, HasCommand, not_or, Option.not_isSome_iff_eq_none]
        at inPlace
      exact faithful_selectInputSource others inPlace.1 inPlace.2
  | key others =>
      simp only [IsDisplaced, HasVariable, HasCommand, HasSource, not_or,
        Option.not_isSome_iff_eq_none] at inPlace
      exact faithful_key others inPlace.1 inPlace.2.1 inPlace.2.2
  | @raw value printable =>
      have read : ofJson value = .raw value := by
        by_cases object : ∃ members, value = .obj members
        · obtain ⟨members, rfl⟩ := object
          simp only [IsDisplaced, Json.obj.injEq, exists_eq_left', HasVariable, HasCommand,
            HasSource, not_or, Option.not_isSome_iff_eq_none] at inPlace
          obtain ⟨noVariable, noCommand, noSource, noPress⟩ := inPlace
          have settled := Json.settledMembers_of_printable (Json.printable_obj_iff.1 printable)
          exact (IsRead.raw noVariable noCommand noSource noPress).ofJson_eq settled
        · exact ofJson_eq_raw (Json.settle_eq printable) fun members same => object ⟨members, same⟩
      have faithful := faithful_raw printable read
      rwa [read] at faithful

/-- A displaced event is read again as one of a kind that is tried earlier. -/
theorem IsWritable.rank_lt {event : Event} (writable : event.IsWritable)
    (displaced : event.IsDisplaced) : event.reread.rank < event.rank := by
  have printable := writable.printable
  cases writable with
  | setVariable signed others => exact displaced.elim
  | @shellCommand command extra others =>
      have has : HasVariable (("shell_command", .str command) :: extra) := displaced
      exact ((isRead_of_printable printable).rank_eq has).trans_lt Nat.zero_lt_one
  | @selectInputSource source extra others =>
      have read := isRead_of_printable printable
      have other : ∀ name, name ≠ "select_input_source" →
          Members.get? (("select_input_source", source.toJson) :: extra) name = extra.get? name :=
        fun name differ => Members.get?_cons_other differ
      rcases displaced with has | has
      · rw [HasVariable, ← other _ (by decide)] at has
        exact (read.rank_eq has).trans_lt (by simp [rank])
      · rw [HasCommand, ← other _ (by decide)] at has
        exact (read.rank_le_one has).trans_lt (by simp [rank])
  | @key press others =>
      have other : ∀ name, name ∉ KeyPress.fieldNames →
          Members.get? (Json.present press.slots ++ press.extra) name = press.extra.get? name :=
        fun name unknown => Json.get?_written_other unknown
      rw [toJson, press.toJson_eq] at printable
      rw [reread, toJson, press.toJson_eq]
      have read := isRead_of_printable printable
      rcases displaced with has | has | has
      · rw [HasVariable, ← other _ (by decide)] at has
        exact (read.rank_eq has).trans_lt (by simp [rank])
      · rw [HasCommand, ← other _ (by decide)] at has
        exact (read.rank_le_one has).trans_lt (by simp [rank])
      · rw [HasSource, ← other _ (by decide)] at has
        exact (read.rank_le_two has).trans_lt (by simp [rank])
  | @raw value _ =>
      rcases displaced with ⟨members, rfl, displaced⟩
      have read := isRead_of_printable printable
      rcases displaced with has | has | has | has
      · exact (read.rank_eq has).trans_lt (by simp [rank])
      · exact (read.rank_le_one has).trans_lt (by simp [rank])
      · exact (read.rank_le_two has).trans_lt (by simp [rank])
      · exact (read.rank_le_three has).trans_lt (by simp [rank])

/-- The events that are read again as themselves are those that are not displaced. -/
theorem IsWritable.reread_eq_iff {event : Event} (writable : event.IsWritable) :
    event.reread = event ↔ ¬ event.IsDisplaced := by
  constructor
  · intro same displaced
    exact (writable.rank_lt displaced).ne (congrArg rank same)
  · exact fun inPlace => (writable.faithful inPlace).reread_eq

theorem IsWritable.kind_reread_eq_iff {event : Event} (writable : event.IsWritable) :
    event.reread.kind = event.kind ↔ ¬ event.IsDisplaced := by
  constructor
  · exact fun same displaced => (writable.rank_lt displaced).ne (rank_eq_of_kind_eq same)
  · exact fun inPlace => congrArg kind (writable.faithful inPlace).reread_eq

end Event

end KeyLayers
