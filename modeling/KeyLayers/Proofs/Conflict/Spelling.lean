import KeyLayers.Proofs.Conflict.Detector

/-!
# Inputs that are written in several ways

An input lists the modifiers that have to be held and those that may be held.  The
engine takes both lists for sets, so their order, their repetitions, and whether an
empty list is written at all make no difference to it: of two manipulators that
agree otherwise (`Manipulator.Coincides`) it only ever fires the first.

A detector normalises conditions and compares inputs as they are written.  It
therefore reports two such manipulators together exactly if their modifiers are
written in the same way (`Detector.reported_together_iff`).
-/

namespace KeyLayers

theorem Modifier.canonical_eq_iff {left right : List Modifier} :
    canonical left = canonical right ↔ ∀ modifier, modifier ∈ left ↔ modifier ∈ right := by
  constructor
  · intro same modifier
    rw [← mem_canonical, same, mem_canonical]
  · exact canonical_congr

namespace FromEvent

/-- The modifiers that have to be held; none are listed where nothing is said about modifiers. -/
def mandatory (input : FromEvent) : List Modifier :=
  input.modifiers.elim [] FromModifiers.mandatory

/-- The modifiers that may be held beside them. -/
def optional (input : FromEvent) : List Modifier :=
  input.modifiers.elim [] FromModifiers.optional

/-- The input with both of its lists in the normal form of their sets. -/
def normal (input : FromEvent) : FromEvent :=
  ⟨input.key, some ⟨Modifier.canonical input.mandatory, Modifier.canonical input.optional⟩⟩

theorem eq_of_parts {left right : FromEvent} (key : left.key = right.key)
    (modifiers : left.modifiers = right.modifiers) : left = right := by
  cases left
  cases right
  cases key
  cases modifiers
  rfl

/-- The normal form tells the key and both sets of modifiers, and nothing else. -/
theorem normal_eq_iff {left right : FromEvent} :
    left.normal = right.normal ↔ left.key = right.key ∧
      (∀ modifier, modifier ∈ left.mandatory ↔ modifier ∈ right.mandatory) ∧
        ∀ modifier, modifier ∈ left.optional ↔ modifier ∈ right.optional := by
  simp only [normal, FromEvent.mk.injEq, Option.some.injEq, FromModifiers.mk.injEq,
    Modifier.canonical_eq_iff]

end FromEvent

namespace Manipulator

/-- Whether two manipulators are for one input under one set of conditions, however written. -/
structure Coincides (left right : Manipulator) : Prop where
  key : left.from_.key = right.from_.key
  mandatory : ∀ modifier, modifier ∈ left.from_.mandatory ↔ modifier ∈ right.from_.mandatory
  optional : ∀ modifier, modifier ∈ left.from_.optional ↔ modifier ∈ right.from_.optional
  conditions : Condition.SameSet left.conditions right.conditions

section

variable {left right : Manipulator}

theorem Coincides.normal_eq (coincide : left.Coincides right) :
    left.from_.normal = right.from_.normal :=
  FromEvent.normal_eq_iff.2 ⟨coincide.key, coincide.mandatory, coincide.optional⟩

instance (left right : Manipulator) : Decidable (left.Coincides right) :=
  decidable_of_iff (left.from_.normal = right.from_.normal ∧
      (∀ condition ∈ left.conditions, condition ∈ right.conditions) ∧
        ∀ condition ∈ right.conditions, condition ∈ left.conditions) <| by
    rw [FromEvent.normal_eq_iff]
    constructor
    · rintro ⟨⟨key, mandatory, optional⟩, first, second⟩
      exact ⟨key, mandatory, optional, fun condition => ⟨first condition, second condition⟩⟩
    · rintro ⟨key, mandatory, optional, conditions⟩
      exact ⟨⟨key, mandatory, optional⟩, fun condition => (conditions condition).1,
        fun condition => (conditions condition).2⟩

/-- What coincides has one trigger if the modifiers are written in the same way. -/
theorem Coincides.trigger_eq_iff (coincide : left.Coincides right) :
    Trigger.of left = Trigger.of right ↔ left.from_.modifiers = right.from_.modifiers := by
  have apart : Trigger.of left = Trigger.of right ↔
      left.from_ = right.from_ ∧ Condition.SameSet left.conditions right.conditions :=
    Trigger.of_eq_mk_iff
  rw [apart]
  constructor
  · rintro ⟨input, -⟩
    rw [input]
  · intro modifiers
    exact ⟨FromEvent.eq_of_parts coincide.key modifiers, coincide.conditions⟩

end

end Manipulator

/-! ## Reports -/

namespace Detector

variable {added : List Located} {detector : Detector} {located left right : Located}

/-- A manipulator is in the conflict of its trigger only. -/
theorem trigger_of_mem (perm : detector.groups.Perm (groupsOf added)) {conflict : Conflict}
    (reported : conflict ∈ detector.conflicts) (member : located ∈ conflict.manipulators) :
    conflict.trigger = located.trigger := by
  rw [conflicts, (report_perm perm).mem_iff, List.mem_map] at reported
  rcases reported with ⟨trigger, -, rfl⟩
  exact (mem_sharing.1 member).2.symm

/-- Two manipulators of one trigger are in one conflict, in the order of their addition. -/
theorem exists_conflict_of_trigger_eq (perm : detector.groups.Perm (groupsOf added))
    (both : [left, right].Sublist added) (same : left.trigger = right.trigger) :
    ∃ conflict,
      (detector.conflicts.filter fun conflict =>
        left ∈ conflict.manipulators ∨ right ∈ conflict.manipulators) = [conflict] ∧
      [left, right].Sublist conflict.manipulators := by
  have shared : [left, right].Sublist (Conflict.sharing added left.trigger) := by
    have kept := both.filter (·.trigger == left.trigger)
    rwa [List.filter_eq_self.2] at kept
    intro located member
    rcases List.mem_pair.1 member with rfl | rfl
    · exact beq_self_eq_true _
    · exact beq_iff_eq.2 same.symm
  have members : ∀ conflict ∈ detector.conflicts,
      decide (left ∈ conflict.manipulators ∨ right ∈ conflict.manipulators) =
        (conflict.trigger == left.trigger) := by
    intro conflict reported
    rw [Bool.eq_iff_iff, decide_eq_true_iff, beq_iff_eq]
    constructor
    · rintro (member | member)
      · exact trigger_of_mem perm reported member
      · exact (trigger_of_mem perm reported member).trans same.symm
    · intro trigger
      rw [conflicts, (report_perm perm).mem_iff, List.mem_map] at reported
      rcases reported with ⟨_, -, rfl⟩
      cases trigger
      exact Or.inl (shared.subset List.mem_cons_self)
  have two : 2 ≤ (Conflict.sharing added left.trigger).length := shared.length_le
  have single := (report_perm perm).filter (·.trigger == left.trigger)
  rw [filter_conflicts, if_pos two] at single
  refine ⟨conflictOf added left.trigger, ?_, shared⟩
  rw [List.filter_congr members]
  exact List.perm_singleton.1 single

end Detector

/--
Two manipulators that coincide are reported together exactly if their modifiers are
written in the same way, as they are where both inputs are in normal form: in one
conflict then, and in none that holds both otherwise.
-/
theorem Detector.reported_together_iff (additions : List Addition) (detector : Detector)
    (holds : detector.groups.Perm (Detector.after additions).groups) (left right : Located)
    (both : [left, right].Sublist (additions.flatMap Addition.located))
    (coincide : left.manipulator.Coincides right.manipulator) :
    ((∃ conflict ∈ detector.conflicts,
        left ∈ conflict.manipulators ∧ right ∈ conflict.manipulators) ↔
      left.manipulator.from_.modifiers = right.manipulator.from_.modifiers) ∧
    (left.manipulator.from_.modifiers = right.manipulator.from_.modifiers →
      ∃ conflict,
        (detector.conflicts.filter fun conflict =>
          left ∈ conflict.manipulators ∨ right ∈ conflict.manipulators) = [conflict] ∧
        [left, right].Sublist conflict.manipulators) ∧
    (left.manipulator.from_.normal = left.manipulator.from_ →
      right.manipulator.from_.normal = right.manipulator.from_ →
        left.manipulator.from_.modifiers = right.manipulator.from_.modifiers) := by
  rw [groups_after] at holds
  have together (modifiers : left.manipulator.from_.modifiers =
      right.manipulator.from_.modifiers) :=
    exists_conflict_of_trigger_eq holds both (coincide.trigger_eq_iff.2 modifiers)
  refine ⟨⟨?_, ?_⟩, together, ?_⟩
  · rintro ⟨conflict, reported, first, second⟩
    apply coincide.trigger_eq_iff.1
    exact (trigger_of_mem holds reported first).symm.trans (trigger_of_mem holds reported second)
  · intro modifiers
    rcases together modifiers with ⟨conflict, single, listed⟩
    have reported : conflict ∈ detector.conflicts :=
      (List.mem_filter.1 (single ▸ List.mem_singleton_self conflict)).1
    exact ⟨conflict, reported, listed.subset List.mem_cons_self,
      listed.subset (List.mem_cons_of_mem _ List.mem_cons_self)⟩
  · intro first second
    rw [← first, ← second, coincide.normal_eq]

namespace Sample

/-- Command and shift are held, and written in this order. -/
def switchWindow : Manipulator where
  from_ := ⟨⟨"tab", by decide⟩, some ⟨[.leftShift, .leftCommand], []⟩⟩
  onPress := [.press ⟨"f1", by decide⟩]
  conditions := [.variableIf "vim" 1, .variableUnless "hyper" 1]

/-- The conditions are written in another way. -/
def switchSpace : Manipulator where
  from_ := switchWindow.from_
  onPress := [.press ⟨"f2", by decide⟩]
  conditions := [.variableUnless "hyper" 1, .variableIf "vim" 1, .variableUnless "hyper" 1]

/-- The same manipulator with its modifiers written in a given way. -/
def switchWith (modifiers : Option FromModifiers) : Manipulator :=
  { switchWindow with from_ := ⟨switchWindow.from_.key, modifiers⟩ }

/-- The modifiers are written in the other order. -/
def switchBack : Manipulator :=
  switchWith (some ⟨[.leftCommand, .leftShift], []⟩)

def switchAdditions : List Addition :=
  [.rule ⟨"Windows", [switchWindow, switchBack]⟩, .manipulator "Spaces" switchSpace]

/-- The detector of `switchAdditions`, with its groups in the other order. -/
def switchDetector : Detector :=
  ⟨(Detector.after switchAdditions).groups.reverse⟩

/-- Both ways of writing conditions are one, and both ways of writing modifiers are two. -/
theorem switches_reported :
    switchDetector.groups.Perm (Detector.after switchAdditions).groups ∧
      switchWindow.Coincides switchSpace ∧ switchWindow.Coincides switchBack ∧
      (∃ conflict, conflict ∈ switchDetector.conflicts ∧
        [⟨"Windows", switchWindow⟩, ⟨"Spaces", switchSpace⟩].Sublist conflict.manipulators) ∧
      ¬ ∃ conflict ∈ switchDetector.conflicts, ⟨"Windows", switchWindow⟩ ∈ conflict.manipulators ∧
        ⟨"Windows", switchBack⟩ ∈ conflict.manipulators := by
  have holds : switchDetector.groups.Perm (Detector.after switchAdditions).groups :=
    List.reverse_perm _
  have alike : switchWindow.Coincides switchSpace := by decide
  have unlike : switchWindow.Coincides switchBack := by decide
  have spaces := Detector.reported_together_iff switchAdditions switchDetector holds
    ⟨"Windows", switchWindow⟩ ⟨"Spaces", switchSpace⟩ (by simp [switchAdditions, Addition.located])
    alike
  have windows := Detector.reported_together_iff switchAdditions switchDetector holds
    ⟨"Windows", switchWindow⟩ ⟨"Windows", switchBack⟩
    (by simp [switchAdditions, Addition.located]) unlike
  rcases spaces.2.1 rfl with ⟨conflict, single, listed⟩
  refine ⟨holds, alike, unlike, ⟨conflict, ?_, listed⟩, ?_⟩
  · exact (List.mem_filter.1 (single ▸ List.mem_singleton_self conflict)).1
  · intro together
    exact absurd (windows.1.1 together) (by decide)

/-- Order, repetition and empty lists each hide a conflict. -/
theorem respelled_unreported :
    switchWindow.Coincides (switchWith (some ⟨[.leftCommand, .leftShift], []⟩)) ∧
      switchWindow.Coincides
        (switchWith (some ⟨[.leftShift, .leftCommand, .leftShift], []⟩)) ∧
      (switchWith none).Coincides (switchWith (some ⟨[], []⟩)) ∧
      (Detector.ofRules [⟨"Windows",
        [switchWindow, switchWith (some ⟨[.leftCommand, .leftShift], []⟩),
          switchWith (some ⟨[.leftShift, .leftCommand, .leftShift], []⟩), switchWith none,
          switchWith (some ⟨[], []⟩)]⟩]).conflicts = [] := by
  refine ⟨by decide, by decide, by decide, ?_⟩
  decide +kernel

end Sample

end KeyLayers
