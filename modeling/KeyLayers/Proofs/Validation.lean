import KeyLayers.Layer.Path
import KeyLayers.Layer.Compilation
import KeyLayers.Proofs.Outcome
import Mathlib.Data.List.DropRight
import Mathlib.Data.List.TakeWhile

/-!
# What passes validation

An argument is sound if it has a character that is not blank, has none that is a
control character, and is not too long (`checkArgument_eq_ok_iff`).  The first two look
at single characters only, so of a text that obeys them the length decides
(`checkArgument_of_writable`).

The name of a variable is sound if it has characters and all of them are visible
(`checkVariableName_eq_ok_iff`).  The names of keys are like that, so a layer has a
variable with a sound name if the base is sound (`LeaderPath.checkVariableName_state`).
-/

namespace KeyLayers

/-! ## Lists -/

section

variable {α β : Type} {check : α → Except Defect Unit}

theorem checkAll_map (f : β → α) (items : List β) :
    checkAll check (items.map f) = checkAll (check ∘ f) items := by
  induction items with
  | nil => rfl
  | cons item rest ih => rw [List.map_cons, checkAll, checkAll, ih, Function.comp_apply]

/-- The defect of two lists in a row is that of the first list, if it has one. -/
theorem checkAll_append (first second : List α) :
    checkAll check (first ++ second) =
      checkAll check first >>= fun _ => checkAll check second := by
  induction first with
  | nil => rfl
  | cons item rest ih =>
      rw [List.cons_append, checkAll, checkAll]
      cases check item with
      | ok => exact ih
      | error defect => rfl

end

/-! ## Arguments -/

namespace Text

/-- Nothing is left of a text only if all of it is blank. -/
theorem trim_isEmpty_iff {text : String} :
    (trim text).isEmpty = true ↔ ∀ c ∈ text.toList, isBlank c = true := by
  have trimmed : (trim text).toList = (text.toList.dropWhile isBlank).rdropWhile isBlank :=
    toList_trim text
  rw [String.isEmpty_iff, ← String.toList_eq_nil_iff, trimmed, List.rdropWhile_eq_nil_iff]
  constructor
  · intro blank
    rw [← List.dropWhile_eq_nil_iff]
    by_contra solid
    have bound := List.length_pos_iff.2 solid
    exact List.dropWhile_get_zero_not isBlank text.toList bound (blank _ (List.get_mem _ _))
  · intro blank c member
    exact blank c ((List.dropWhile_sublist isBlank).mem member)

/-- Has a character that is not blank, and none that is a control character. -/
structure Writable (text : String) : Prop where
  solid : ∃ c ∈ text.toList, isBlank c = false
  printable : ∀ c ∈ text.toList, isControl c = false

theorem writable_of_all {text : String} (solid : text.toList.any (!isBlank ·) = true)
    (printable : text.toList.all (!isControl ·) = true) : Writable text :=
  ⟨by simpa using solid, by simpa using printable⟩

theorem Writable.append {first second : String} (writable : Writable first)
    (printable : ∀ c ∈ second.toList, isControl c = false) : Writable (first ++ second) where
  solid := by
    rcases writable.solid with ⟨c, member, solid⟩
    exact ⟨c, by rw [String.toList_append]; exact List.mem_append_left _ member, solid⟩
  printable := by
    intro c member
    rw [String.toList_append] at member
    rcases List.mem_append.1 member with here | there
    · exact writable.printable c here
    · exact printable c there

end Text

/-- What is wrong with a writable argument is its length, if anything is. -/
theorem checkArgument_of_writable {argument : String} (writable : Text.Writable argument)
    (subject : Subject) :
    checkArgument subject argument =
      if argument.utf8ByteSize ≤ greatestLength then .ok ()
      else .error (.argumentTooLong argument.utf8ByteSize) := by
  rcases writable with ⟨⟨c, member, solid⟩, printable⟩
  have nonempty : ¬ (Text.trim argument).isEmpty = true := by
    intro empty
    rw [Text.trim_isEmpty_iff.1 empty c member] at solid
    cases solid
  have uncontrolled : ¬ argument.toList.any Text.isControl = true := by
    rw [List.any_eq_true]
    rintro ⟨c, member, control⟩
    rw [printable c member] at control
    cases control
  rw [checkArgument, if_neg nonempty, if_neg uncontrolled]
  by_cases long : greatestLength < argument.utf8ByteSize
  · rw [if_pos long, if_neg (Nat.not_le.2 long)]
  · rw [if_neg long, if_pos (Nat.not_lt.1 long)]

theorem checkArgument_eq_ok_iff {subject : Subject} {argument : String} :
    checkArgument subject argument = .ok () ↔
      Text.Writable argument ∧ argument.utf8ByteSize ≤ greatestLength := by
  constructor
  · intro sound
    have writable : Text.Writable argument := by
      unfold checkArgument at sound
      split at sound
      · cases sound
      next nonempty =>
        split at sound
        · cases sound
        · split at sound
          · cases sound
          next uncontrolled =>
            rw [Text.trim_isEmpty_iff] at nonempty
            rw [List.any_eq_true] at uncontrolled
            constructor
            · simpa using nonempty
            · simpa using uncontrolled
    rw [checkArgument_of_writable writable] at sound
    split at sound
    next short => exact ⟨writable, short⟩
    next => cases sound
  · rintro ⟨writable, short⟩
    rw [checkArgument_of_writable writable, if_pos short]

/-! ## Names of variables -/

namespace Text

/-- The characters that names of variables are made of. -/
def isVisible (c : Char) : Bool :=
  !(isBlank c || isControl c)

end Text

theorem checkVariableName_eq_ok_iff {name : String} :
    checkVariableName name = .ok () ↔
      name ≠ "" ∧ ∀ c ∈ name.toList, Text.isVisible c = true := by
  simp [checkVariableName, Text.isVisible]

theorem Key.isVisible_of_mem_name (key : Key) :
    ∀ c ∈ key.name.toList, Text.isVisible c = true := by
  have visible : ∀ name ∈ Key.names, name.toList.all Text.isVisible = true := by
    decide +kernel
  exact List.all_eq_true.1 (visible key.name key.known)

theorem mem_of_mem_intercalate {α : Type} {separator : List α} {parts : List (List α)}
    {item : α} (member : item ∈ separator.intercalate parts) :
    item ∈ separator ∨ ∃ part ∈ parts, item ∈ part := by
  induction parts with
  | nil => simp at member
  | cons part rest ih =>
      cases rest with
      | nil =>
          rw [List.intercalate_singleton] at member
          exact Or.inr ⟨part, .head _, member⟩
      | cons next rest =>
          rw [List.intercalate_cons_cons, List.mem_append, List.mem_append] at member
          rcases member with (here | between) | later
          · exact Or.inr ⟨part, .head _, here⟩
          · exact Or.inl between
          · rcases ih later with between | ⟨other, among, inside⟩
            · exact Or.inl between
            · exact Or.inr ⟨other, .tail _ among, inside⟩

/-- A layer has a variable with a sound name if the base is sound. -/
theorem LeaderPath.checkVariableName_state {base : String}
    (sound : checkVariableName base = .ok ()) (path : LeaderPath) :
    checkVariableName (path.state base).name = .ok () := by
  rw [checkVariableName_eq_ok_iff] at sound ⊢
  rcases sound with ⟨-, visible⟩
  have joint : ∀ c ∈ "__".toList, Text.isVisible c = true :=
    List.all_eq_true.1 (by decide +kernel)
  rw [state, ← String.toList_inj.ne]
  simp only [String.toList_append, String.toList_intercalate]
  constructor
  · simp
  · intro c member
    rw [List.mem_append, List.mem_append] at member
    rcases member with (inBase | between) | inKeys
    · exact visible c inBase
    · exact joint c (.tail _ between)
    · rcases mem_of_mem_intercalate inKeys with between | ⟨name, among, inside⟩
      · exact joint c between
      · simp only [List.map_map, List.mem_map, Function.comp_apply] at among
        rcases among with ⟨key, -, rfl⟩
        exact key.isVisible_of_mem_name c inside

theorem CompileOptions.check_eq_ok_iff {options : CompileOptions} :
    options.check = .ok () ↔ checkVariableName options.base = .ok () ∧
      ∀ condition ∈ options.rootConditions ++ options.contextConditions,
        condition.check = .ok () := by
  simp only [check, mapError_eq_ok_iff, bind_eq_ok_iff, checkAll_eq_ok_iff]
  constructor
  · rintro ⟨⟨⟩, base, conditions⟩
    exact ⟨base, conditions⟩
  · rintro ⟨base, conditions⟩
    exact ⟨(), base, conditions⟩

end KeyLayers
