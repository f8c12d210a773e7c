import KeyLayers.Environment

/-!
# Two expansions of a path

A path is expanded with its variables and its tilde, or with its tilde alone.
Both agree where the variables change nothing, as in a path without a dollar
sign, and where one of them is not set.
-/

namespace KeyLayers

namespace Environment

variable {environment : Environment} {path : String}

theorem expandTilde_of_not_tilde (plain : startsWithTilde path.toList = false) :
    environment.expandTilde path = path := by
  rw [expandTilde]
  split
  · rename_i same _
    rw [same] at plain
    cases plain
  · rename_i same _
    rw [same] at plain
    cases plain
  · rfl

/-- What has no variable stands for itself. -/
theorem expandVariables?_of_no_dollar (text : List Char) (none : '$' ∉ text) :
    environment.expandVariables? text = some text := by
  induction text with
  | nil => simp [expandVariables?]
  | cons c rest ih =>
      have apart : c ≠ '$' := fun same => none (same ▸ .head _)
      have rest := ih fun later => none (.tail _ later)
      rw [expandVariables?, rest]
      · rfl
      all_goals simp_all

theorem expand_of_none (none : environment.expandVariables? path.toList = none) :
    environment.expand path = environment.expandTilde path := by
  rw [expand, none]

/-- Where the variables change nothing, only the tilde is expanded. -/
theorem expand_of_same (same : environment.expandVariables? path.toList = some path.toList) :
    environment.expand path = environment.expandTilde path := by
  simp only [expand, same, Bool.and_not_self, Bool.false_eq_true, if_false, String.ofList_toList]

/-- A path without a tilde has one expansion exactly if its variables change nothing. -/
theorem expand_eq_expandTilde_iff (plain : startsWithTilde path.toList = false) :
    environment.expand path = environment.expandTilde path ↔
      ∀ expanded, environment.expandVariables? path.toList = some expanded →
        expanded = path.toList := by
  constructor
  · intro same expanded found
    have whole : environment.expand path = String.ofList expanded := by
      simp only [expand, found, plain, Bool.not_false, Bool.and_true]
      split
      · rfl
      · rename_i tilde
        apply expandTilde_of_not_tilde
        simpa using tilde
    rw [whole, expandTilde_of_not_tilde plain] at same
    rw [← same, String.toList_ofList]
  · intro unchanged
    cases found : environment.expandVariables? path.toList with
    | none => exact expand_of_none found
    | some expanded =>
        rw [unchanged expanded found] at found
        exact expand_of_same found

end Environment

end KeyLayers
