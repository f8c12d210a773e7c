import KeyLayers.Proofs.Document.Displaced

/-!
# Stable events

Writing an event leaves fields out and spells keys in one way, so what is written
need not be the value that was read.  It is read as the same event all the same
(`Event.reading_stable`): a kind that is tried earlier refuses what is written for
the same reason for which it refused the value.

A value that repeats a member is not covered, because the reason can be the
repetition (`Event.IsDisplaced`), nor is one with an infinite number, which is
written as `null` and may then be read.
-/

namespace KeyLayers

namespace Event

/-- Where no kind of event takes a value, the value is kept as it is. -/
theorem eq_of_ofJson_eq_raw {value kept : Json} (proper : value.Proper)
    (raw : ofJson value = .raw kept) : kept = value := by
  cases value with
  | obj members =>
      have read := isRead_ofJson (Json.settledMembers_of_proper proper)
      rw [raw] at read
      cases read
      rfl
  | _ =>
      rw [ofJson_eq_raw proper.settled (by simp)] at raw
      cases raw
      rfl

theorem reread_ofJson {value : Json} (proper : value.Proper) :
    (ofJson value).reread = ofJson value := by
  cases value with
  | obj members => exact ofJson_toJson_ofJson_obj (Json.settledMembers_of_proper proper)
  | _ =>
      have raw := ofJson_eq_raw proper.settled (by simp)
      rw [raw]
      exact raw

/--
An event that has been read is read again as itself from what is written for it,
which is written again as it is.  A value of no kind is written back.
-/
theorem reading_stable (value : Json) (proper : value.Proper) :
    (ofJson value).reread = ofJson value ∧
      (ofJson value).reread.toJson = (ofJson value).toJson ∧
      ∀ kept, ofJson value = .raw kept → (ofJson value).toJson = value := by
  have again := reread_ofJson proper
  refine ⟨again, congrArg toJson again, ?_⟩
  intro kept raw
  rw [raw, toJson, eq_of_ofJson_eq_raw proper raw]

end Event

namespace Sample

/-- A key press in another spelling, with an assignment that has a member too many. -/
def laxPress : Json :=
  .obj [("lazy", .bool false),
    ("set_variable", .obj [("name", .str "a"), ("value", .int 1), ("type", .str "set")]),
    ("key_code", .str "Enter"), ("halt", .bool true)]

theorem laxPress_stable :
    laxPress.Proper ∧
      Event.ofJson laxPress = .key ⟨⟨"return_or_enter", by decide⟩, [], false,
        [("set_variable",
            .obj [("name", .str "a"), ("value", .int 1), ("type", .str "set")]),
          ("halt", .bool true)]⟩ ∧
      (Event.ofJson laxPress).toJson ≠ laxPress ∧
      (Event.ofJson laxPress).reread = Event.ofJson laxPress := by
  have proper : laxPress.Proper := by
    simp [laxPress, Members.each_iff, Members.names]
  have read : Event.ofJson laxPress = .key ⟨⟨"return_or_enter", by decide⟩, [], false,
      [("set_variable",
          .obj [("name", .str "a"), ("value", .int 1), ("type", .str "set")]),
        ("halt", .bool true)]⟩ := by
    decide +kernel
  refine ⟨proper, read, ?_, (Event.reading_stable laxPress proper).1⟩
  rw [read]
  decide +kernel

end Sample

end KeyLayers
