import Mathlib.Data.List.Induction
import Mathlib.Data.List.Nodup

/-!
# Lists without repetitions

Of items that are equal one stays, if they stand next to each other (`eraseReps`) or wherever
they stand (`eraseDups`).  In a sorted list the first is enough for no item to stay twice.
-/

namespace KeyLayers

/-! ## Next to each other -/

section

variable {α : Type} [BEq α] {item current : α} {items rest seen : List α}

theorem eraseReps_loop_eq (current : α) (rest seen : List α) :
    List.eraseRepsBy.loop (· == ·) current rest seen =
      seen.reverse ++ (current :: rest).eraseReps := by
  rw [List.eraseReps, List.eraseRepsBy]
  induction rest generalizing current seen with
  | nil => simp [List.eraseRepsBy.loop]
  | cons next rest ih =>
      rw [List.eraseRepsBy.loop, List.eraseRepsBy.loop]
      cases current == next with
      | true => exact ih current seen
      | false =>
          dsimp only
          rw [ih next (current :: seen), ih next [current]]
          simp

variable [LawfulBEq α]

theorem mem_eraseReps_loop :
    item ∈ List.eraseRepsBy.loop (· == ·) current rest seen ↔
      item = current ∨ item ∈ rest ∨ item ∈ seen := by
  induction rest generalizing current seen with
  | nil => simp [List.eraseRepsBy.loop, or_comm]
  | cons next rest ih =>
      rw [List.eraseRepsBy.loop]
      cases same : current == next with
      | true =>
          rw [ih, beq_iff_eq.1 same, List.mem_cons]
          tauto
      | false =>
          rw [ih, List.mem_cons, List.mem_cons]
          tauto

theorem mem_eraseReps : item ∈ items.eraseReps ↔ item ∈ items := by
  cases items with
  | nil => rfl
  | cons first rest =>
      rw [List.eraseReps, List.eraseRepsBy, mem_eraseReps_loop]
      simp

theorem eraseReps_cons_cons (first second : α) (rest : List α) :
    (first :: second :: rest).eraseReps =
      if first == second then (second :: rest).eraseReps
      else first :: (second :: rest).eraseReps := by
  conv_lhs => rw [List.eraseReps, List.eraseRepsBy, List.eraseRepsBy.loop]
  cases same : first == second with
  | true =>
      rw [eraseReps_loop_eq, beq_iff_eq.1 same]
      rfl
  | false =>
      dsimp only
      rw [eraseReps_loop_eq]
      rfl

/-- Without its repetitions a sorted list has no item twice. -/
theorem pairwise_eraseReps {le : α → α → Prop}
    (antisymm : ∀ left right, le left right → le right left → left = right)
    (sorted : items.Pairwise le) :
    items.eraseReps.Pairwise fun left right => le left right ∧ left ≠ right := by
  induction items with
  | nil => exact .nil
  | cons first rest ih =>
      rcases List.pairwise_cons.1 sorted with ⟨least, tail⟩
      cases rest with
      | nil => exact List.pairwise_singleton _ _
      | cons second rest =>
          rw [eraseReps_cons_cons]
          split
          case isTrue => exact ih tail
          case isFalse different =>
            refine List.pairwise_cons.2 ⟨?_, ih tail⟩
            intro other member
            have later := mem_eraseReps.1 member
            refine ⟨least other later, ?_⟩
            rintro rfl
            apply different
            rw [beq_iff_eq]
            rcases List.mem_cons.1 later with same | beyond
            · exact same
            · exact antisymm _ _ (least second List.mem_cons_self)
                ((List.pairwise_cons.1 tail).1 _ beyond)

end

/-! ## Wherever they stand -/

/-- Another item is kept at the end, unless it occurs before. -/
theorem eraseDups_concat {α : Type} [DecidableEq α] (items : List α) (item : α) :
    (items ++ [item]).eraseDups =
      if item ∈ items.eraseDups then items.eraseDups else items.eraseDups ++ [item] := by
  rw [List.eraseDups_append]
  by_cases known : item ∈ items <;>
    simp [known, List.removeAll, List.eraseDups_cons]

theorem nodup_eraseDups {α : Type} [DecidableEq α] (items : List α) :
    items.eraseDups.Nodup := by
  induction items using List.reverseRecOn with
  | nil => exact .nil
  | append_singleton items item ih =>
      rw [eraseDups_concat]
      split
      · exact ih
      · next fresh => exact List.concat_eq_append ▸ List.Nodup.concat fresh ih

end KeyLayers
