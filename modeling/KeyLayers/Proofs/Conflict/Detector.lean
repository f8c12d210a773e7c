import KeyLayers.Conflict.Detector
import KeyLayers.Proofs.Condition
import Mathlib.Data.List.Dedup

/-!
# What a detector reports

After any number of additions a detector holds one group for each trigger that was
added, with the manipulators of the trigger in the order of addition
(`Detector.groups_after`).  The groups themselves come in no particular order, so a
report is shown to be the same list of conflicts, up to ties between keys and
conditions, for every order of the groups (`Detector.detects_exactly`).
-/

namespace KeyLayers

/-! ## Additions -/

/-- What is added to a detector at a time. -/
inductive Addition where
  | rule (rule : Rule)
  | manipulator (rule : String) (manipulator : Manipulator)

/-- The manipulators that are added, in order. -/
def Addition.located : Addition → List Located
  | rule added => added.manipulators.map (⟨added.description, ·⟩)
  | manipulator name added => [⟨name, added⟩]

namespace Detector

/-- The detector after one more addition. -/
def next (detector : Detector) : Addition → Detector
  | .rule rule => detector.addRule rule
  | .manipulator rule manipulator => detector.add rule manipulator

/-- The detector after some additions. -/
def after (additions : List Addition) : Detector :=
  additions.foldl next {}

/-- The groups that some manipulators fall into. -/
def groupsOf (added : List Located) : List TriggerGroup :=
  (Conflict.triggers added).map fun trigger => (trigger, Conflict.sharing added trigger)

/-! ## Groups -/

section

variable {added : List Located} {trigger : Trigger} {located : Located}

theorem mem_triggers : trigger ∈ Conflict.triggers added ↔
    ∃ located ∈ added, located.trigger = trigger := by
  rw [Conflict.triggers, List.mem_eraseDups, List.mem_map]

theorem mem_sharing : located ∈ Conflict.sharing added trigger ↔
    located ∈ added ∧ located.trigger = trigger := by
  rw [Conflict.sharing, List.mem_filter, beq_iff_eq]

theorem sharing_eq_nil (fresh : trigger ∉ Conflict.triggers added) :
    Conflict.sharing added trigger = [] := by
  rw [Conflict.sharing, List.filter_eq_nil_iff]
  intro located member same
  exact fresh (mem_triggers.2 ⟨located, member, beq_iff_eq.1 same⟩)

theorem sharing_concat :
    Conflict.sharing (added ++ [located]) trigger =
      if trigger = located.trigger then Conflict.sharing added trigger ++ [located]
      else Conflict.sharing added trigger := by
  rw [Conflict.sharing, List.filter_append, List.filter_cons, List.filter_nil]
  by_cases same : trigger = located.trigger
  · rw [if_pos same, if_pos (beq_iff_eq.2 same.symm)]
    rfl
  · have other : ¬ (located.trigger == trigger) = true := fun equal =>
      same (beq_iff_eq.1 equal).symm
    rw [if_neg same, if_neg other, List.append_nil]
    rfl

theorem triggers_concat :
    Conflict.triggers (added ++ [located]) =
      if located.trigger ∈ Conflict.triggers added then Conflict.triggers added
      else Conflict.triggers added ++ [located.trigger] := by
  rw [Conflict.triggers, List.map_append, List.map_singleton, eraseDups_concat]
  rfl

end

/-- A manipulator joins the group of its trigger; the other groups stay as they are. -/
theorem file_map {triggers : List Trigger} (distinct : triggers.Nodup)
    (group : Trigger → List Located) (located : Located) :
    file located (triggers.map fun trigger => (trigger, group trigger)) =
      if located.trigger ∈ triggers then
        triggers.map fun trigger =>
          (trigger, if trigger = located.trigger then group trigger ++ [located]
            else group trigger)
      else (triggers.map fun trigger => (trigger, group trigger)) ++
        [(located.trigger, [located])] := by
  induction triggers with
  | nil => rfl
  | cons first rest ih =>
      rw [List.nodup_cons] at distinct
      rw [List.map_cons, file]
      by_cases same : first = located.trigger
      · subst same
        have others : ∀ trigger ∈ rest,
            (trigger, if trigger = located.trigger then group trigger ++ [located]
              else group trigger) = (trigger, group trigger) := by
          intro trigger member
          rw [if_neg]
          rintro rfl
          exact distinct.1 member
        rw [if_pos rfl, if_pos List.mem_cons_self, List.map_cons, if_pos rfl,
          List.map_congr_left others]
      · rw [if_neg same, ih distinct.2, List.map_cons, if_neg same]
        by_cases known : located.trigger ∈ rest
        · rw [if_pos known, if_pos (List.mem_cons_of_mem _ known)]
        · rw [if_neg known, if_neg (List.not_mem_cons_of_ne_of_not_mem (Ne.symm same) known)]
          rfl

theorem groupsOf_concat (added : List Located) (located : Located) :
    groupsOf (added ++ [located]) = file located (groupsOf added) := by
  have distinct : (Conflict.triggers added).Nodup := nodup_eraseDups _
  rw [groupsOf, groupsOf, file_map distinct, triggers_concat]
  by_cases known : located.trigger ∈ Conflict.triggers added
  · rw [if_pos known, if_pos known]
    simp only [sharing_concat]
  · have others : ∀ trigger ∈ Conflict.triggers added,
        (trigger, Conflict.sharing (added ++ [located]) trigger) =
          (trigger, Conflict.sharing added trigger) := by
      intro trigger member
      rw [sharing_concat, if_neg]
      rintro rfl
      exact known member
    rw [if_neg known, if_neg known, List.map_append, List.map_congr_left others,
      List.map_singleton, sharing_concat, if_pos rfl, sharing_eq_nil known, List.nil_append]

/-- An addition files the manipulators that it adds, one after the other. -/
theorem groups_next (detector : Detector) (addition : Addition) :
    (detector.next addition).groups =
      addition.located.foldl (fun groups located => file located groups) detector.groups := by
  cases addition with
  | rule rule =>
      rw [next, addRule, Addition.located]
      induction rule.manipulators generalizing detector with
      | nil => rfl
      | cons manipulator rest ih =>
          rw [List.foldl_cons, ih, List.map_cons, List.foldl_cons]
          rfl
  | manipulator rule manipulator => rfl

theorem foldl_file (added more : List Located) :
    more.foldl (fun groups located => file located groups) (groupsOf added) =
      groupsOf (added ++ more) := by
  induction more generalizing added with
  | nil => rw [List.append_nil, List.foldl_nil]
  | cons located more ih =>
      rw [List.foldl_cons, ← groupsOf_concat, ih, List.append_assoc, List.singleton_append]

/-- The groups of a detector are those that the added manipulators fall into. -/
theorem groups_after (additions : List Addition) :
    (after additions).groups = groupsOf (additions.flatMap Addition.located) := by
  induction additions using List.reverseRecOn with
  | nil => rfl
  | append_singleton additions addition ih =>
      rw [after, List.foldl_append, List.foldl_cons, List.foldl_nil, groups_next]
      rw [after] at ih
      rw [ih, foldl_file, List.flatMap_append, List.flatMap_singleton]

end Detector

/-! ## The order of reports -/

namespace Trigger

/-- The comparison of triggers by key and then by conditions. -/
def compare : Trigger → Trigger → Ordering :=
  compareLex (compareOn fun trigger => trigger.from_.key.name)
    fun left right => List.compareLex Condition.compare left.conditions right.conditions

instance : Std.TransCmp compare := by
  let _ : Ord (List Condition) := ⟨List.compareLex Condition.compare⟩
  have : Std.TransOrd (List Condition) :=
    inferInstanceAs (Std.TransCmp (List.compareLex Condition.compare))
  exact inferInstanceAs (Std.TransCmp (compareLex
    (compareOn fun trigger : Trigger => trigger.from_.key.name) (compareOn Trigger.conditions)))

theorem le_eq (left right : Trigger) : left.le right = (compare left right).isLE := rfl

theorem le_trans (first second third : Trigger) (before : first.le second = true)
    (after : second.le third = true) : first.le third = true := by
  rw [le_eq] at before after ⊢
  exact Std.TransCmp.isLE_trans before after

theorem le_total (left right : Trigger) : (left.le right || right.le left) = true := by
  have swapped : compare right left = (compare left right).swap := Std.OrientedCmp.eq_swap
  rw [le_eq, le_eq, swapped]
  cases compare left right <;> rfl

theorem le_iff {left right : Trigger} :
    left.le right = true ↔
      left.from_.key.name < right.from_.key.name ∨
        left.from_.key.name = right.from_.key.name ∧
          (List.compareLex Condition.compare left.conditions right.conditions).isLE = true := by
  rw [le, Ordering.isLE_then_iff_or, Std.LawfulEqOrd.compare_eq_iff_eq]
  exact or_congr_left compareOfLessAndEq_eq_lt

end Trigger

/-! ## Reports -/

/-- Whether two lists hold the same conditions, in whatever order and however often. -/
def Condition.SameSet (left right : List Condition) : Prop :=
  ∀ condition, condition ∈ left ↔ condition ∈ right

instance (left right : List Condition) : Decidable (Condition.SameSet left right) :=
  decidable_of_iff _ Condition.sortedSet_eq_iff

theorem Trigger.of_eq_mk_iff {manipulator : Manipulator} {input : FromEvent}
    {conditions : List Condition} :
    Trigger.of manipulator = ⟨input, Condition.sortedSet conditions⟩ ↔
      manipulator.from_ = input ∧ Condition.SameSet manipulator.conditions conditions := by
  rw [Trigger.of, Trigger.mk.injEq, Condition.sortedSet_eq_iff]
  rfl

/-- The manipulators for one input and one set of conditions, in the order of addition. -/
def Conflict.alike (added : List Located) (input : FromEvent) (conditions : List Condition) :
    List Located :=
  added.filter fun located => located.manipulator.from_ = input ∧
    Condition.SameSet located.manipulator.conditions conditions

/-- Whether some conflicts are those among the manipulators that were added. -/
structure Conflict.AreAmong (added : List Located) (conflicts : List Conflict) : Prop where
  /-- Each input and set of conditions has one conflict if it is shared, else none. -/
  grouped : ∀ input conditions,
    (conflicts.filter fun conflict => conflict.trigger.from_ = input ∧
        Condition.SameSet conflict.trigger.conditions conditions) =
      if 2 ≤ (Conflict.alike added input conditions).length then
        [⟨⟨input, Condition.sortedSet conditions⟩, Conflict.alike added input conditions⟩]
      else []
  sorted : conflicts.Pairwise fun left right =>
    left.trigger.from_.key.name < right.trigger.from_.key.name ∨
      left.trigger.from_.key.name = right.trigger.from_.key.name ∧
        (List.compareLex Condition.compare left.trigger.conditions
          right.trigger.conditions).isLE = true

namespace Detector

variable {added : List Located} {order : List TriggerGroup}

theorem alike_eq_sharing (added : List Located) (input : FromEvent)
    (conditions : List Condition) :
    Conflict.alike added input conditions =
      Conflict.sharing added ⟨input, Condition.sortedSet conditions⟩ := by
  apply List.filter_congr
  intro located _
  rw [Bool.eq_iff_iff, decide_eq_true_iff, beq_iff_eq, Located.trigger, Trigger.of_eq_mk_iff]

/-- The conflict of a trigger, if it is shared. -/
def conflictOf (added : List Located) (trigger : Trigger) : Conflict :=
  ⟨trigger, Conflict.sharing added trigger⟩

/-- The triggers that are shared, in the order in which they were first added. -/
def sharedTriggers (added : List Located) : List Trigger :=
  (Conflict.triggers added).filter (Conflict.isShared added)

theorem conflicts_groupsOf (added : List Located) :
    (((groupsOf added).filter isConflict).map fun group => Conflict.mk group.1 group.2) =
      (sharedTriggers added).map (conflictOf added) := by
  rw [groupsOf, List.filter_map, List.map_map]
  rfl

/-- Whatever order groups are in, the conflicts of the shared triggers are reported. -/
theorem report_perm (perm : order.Perm (groupsOf added)) :
    (report order).Perm ((sharedTriggers added).map (conflictOf added)) := by
  rw [← conflicts_groupsOf]
  exact (List.mergeSort_perm _ _).trans ((perm.filter isConflict).map _)

theorem report_groupsOf (added : List Located) :
    report (groupsOf added) = Conflict.among added := by
  rw [report, conflicts_groupsOf]
  symm
  apply List.map_mergeSort
  intro left _ right _
  rfl

theorem mem_sharedTriggers {trigger : Trigger} :
    trigger ∈ sharedTriggers added ↔ 2 ≤ (Conflict.sharing added trigger).length := by
  rw [sharedTriggers, List.mem_filter, Conflict.isShared, decide_eq_true_iff]
  constructor
  · exact And.right
  · intro shared
    refine ⟨?_, shared⟩
    by_contra fresh
    rw [sharing_eq_nil fresh] at shared
    cases shared

theorem nodup_sharedTriggers (added : List Located) : (sharedTriggers added).Nodup :=
  (nodup_eraseDups _).filter _

/-- A trigger has one conflict among those of the shared triggers, if it is shared. -/
theorem filter_conflicts (added : List Located) (trigger : Trigger) :
    ((sharedTriggers added).map (conflictOf added)).filter (·.trigger == trigger) =
      if 2 ≤ (Conflict.sharing added trigger).length then [conflictOf added trigger] else [] := by
  have single : (sharedTriggers added).filter (· == trigger) =
      if 2 ≤ (Conflict.sharing added trigger).length then [trigger] else [] := by
    rw [List.filter_beq, (nodup_sharedTriggers added).count]
    simp only [mem_sharedTriggers]
    split <;> rfl
  have same : (fun conflict : Conflict => conflict.trigger == trigger) ∘ conflictOf added =
      (· == trigger) := rfl
  rw [List.filter_map, same, single]
  split <;> rfl

/-- A reported trigger is one of a manipulator, so its conditions are in their sorted form. -/
theorem exists_of_mem_report (perm : order.Perm (groupsOf added)) {conflict : Conflict}
    (member : conflict ∈ report order) :
    ∃ manipulator, conflict.trigger = Trigger.of manipulator := by
  rcases List.mem_map.1 ((report_perm perm).mem_iff.1 member) with ⟨trigger, shared, rfl⟩
  rcases mem_triggers.1 (List.mem_filter.1 shared).1 with ⟨located, -, rfl⟩
  exact ⟨located.manipulator, rfl⟩

/-- What is reported of the groups, in whatever order, are the conflicts among what was added. -/
theorem areAmong_report (perm : order.Perm (groupsOf added)) :
    Conflict.AreAmong added (report order) where
  grouped := by
    intro input conditions
    have same : ∀ conflict ∈ report order,
        decide (conflict.trigger.from_ = input ∧
          Condition.SameSet conflict.trigger.conditions conditions) =
        (conflict.trigger == ⟨input, Condition.sortedSet conditions⟩) := by
      intro conflict member
      rcases exists_of_mem_report perm member with ⟨manipulator, trigger⟩
      have sorted : Condition.SameSet (Trigger.of manipulator).conditions conditions ↔
          Condition.SameSet manipulator.conditions conditions := by
        simp only [Condition.SameSet, Trigger.of, Condition.mem_sortedSet]
      rw [Bool.eq_iff_iff, decide_eq_true_iff, beq_iff_eq, trigger, sorted,
        Trigger.of_eq_mk_iff]
      rfl
    have matching := (report_perm perm).filter
      (·.trigger == ⟨input, Condition.sortedSet conditions⟩)
    rw [filter_conflicts] at matching
    rw [List.filter_congr same, alike_eq_sharing]
    split
    next shared =>
      rw [if_pos shared] at matching
      exact List.perm_singleton.1 matching
    next single =>
      rw [if_neg single] at matching
      exact List.perm_nil.1 matching
  sorted := by
    rw [report]
    apply List.Pairwise.imp Trigger.le_iff.1
    apply List.pairwise_mergeSort
    · intro first second third
      exact Trigger.le_trans _ _ _
    · intro left right
      exact Trigger.le_total _ _

/-! ## Looking a trigger up -/

/-- A trigger is looked up in the groups, in whatever order they are. -/
theorem lookup_eq (perm : order.Perm (groupsOf added)) (trigger : Trigger) :
    order.lookup trigger = if trigger ∈ Conflict.triggers added
      then some (Conflict.sharing added trigger) else none := by
  have mem : ∀ group, (trigger, group) ∈ order ↔
      trigger ∈ Conflict.triggers added ∧ Conflict.sharing added trigger = group := by
    intro group
    rw [perm.mem_iff, groupsOf, List.mem_map]
    constructor
    · rintro ⟨_, known, ⟨⟩⟩
      exact ⟨known, rfl⟩
    · rintro ⟨known, rfl⟩
      exact ⟨trigger, known, rfl⟩
  cases found : order.lookup trigger with
  | none =>
      rw [if_neg]
      intro known
      have absent := List.lookup_eq_none_iff.1 found _ ((mem _).2 ⟨known, rfl⟩)
      exact bne_iff_ne.1 absent rfl
  | some group =>
      rcases List.lookup_eq_some_iff.1 found with ⟨before, rest, split, -⟩
      have member : (trigger, group) ∈ order := by
        rw [split]
        exact List.mem_append_right _ List.mem_cons_self
      rw [if_pos ((mem group).1 member).1, ((mem group).1 member).2]

theorem hasConflict_iff {detector : Detector} (perm : detector.groups.Perm (groupsOf added))
    (trigger : Trigger) :
    detector.hasConflict trigger = true ↔
      ∃ conflict ∈ detector.conflicts, conflict.trigger = trigger := by
  have shared : detector.hasConflict trigger = true ↔ trigger ∈ sharedTriggers added := by
    rw [hasConflict, lookup_eq perm, mem_sharedTriggers]
    by_cases known : trigger ∈ Conflict.triggers added
    · rw [if_pos known, Option.any_some, decide_eq_true_iff]
      rfl
    · rw [if_neg known, sharing_eq_nil known]
      decide
  rw [shared, conflicts]
  simp only [(report_perm perm).mem_iff, List.mem_map]
  constructor
  · intro member
    exact ⟨conflictOf added trigger, ⟨trigger, member, rfl⟩, rfl⟩
  · rintro ⟨_, ⟨_, member, rfl⟩, rfl⟩
    exact member

/-- A manipulator is in a conflict exactly if its trigger has one. -/
theorem exists_mem_iff {detector : Detector} (perm : detector.groups.Perm (groupsOf added))
    {located : Located} (member : located ∈ added) :
    (∃ conflict ∈ detector.conflicts, located ∈ conflict.manipulators) ↔
      detector.hasConflict located.trigger = true := by
  rw [hasConflict_iff perm, conflicts]
  simp only [(report_perm perm).mem_iff, List.mem_map]
  constructor
  · rintro ⟨_, ⟨trigger, shared, rfl⟩, inside⟩
    exact ⟨_, ⟨trigger, shared, rfl⟩, (mem_sharing.1 inside).2.symm⟩
  · rintro ⟨_, ⟨trigger, shared, rfl⟩, same⟩
    exact ⟨_, ⟨trigger, shared, rfl⟩, mem_sharing.2 ⟨member, Eq.symm same⟩⟩

/-! ## Counting -/

/-- Filing a manipulator makes one group longer by one. -/
theorem length_file (located : Located) (groups : List TriggerGroup) :
    ((file located groups).flatMap Prod.snd).length = (groups.flatMap Prod.snd).length + 1 := by
  induction groups with
  | nil => rfl
  | cons first rest ih =>
      rw [file]
      split
      · simp only [List.flatMap_cons, List.length_append, List.length_singleton]
        omega
      · simp only [List.flatMap_cons, List.length_append, ih]
        omega

theorem length_groupsOf (added : List Located) :
    ((groupsOf added).flatMap Prod.snd).length = added.length := by
  induction added using List.reverseRecOn with
  | nil => rfl
  | append_singleton added located ih =>
      rw [groupsOf_concat, length_file, ih, List.length_append, List.length_singleton]

/-! ## Rules -/

theorem ofRules_eq_after (rules : List Rule) :
    ofRules rules = after (rules.map Addition.rule) := by
  rw [ofRules, after, List.foldl_map]
  rfl

/-- What a detector reports of some rules are the conflicts among their manipulators. -/
theorem conflicts_ofRules (rules : List Rule) :
    (ofRules rules).conflicts = Conflict.among (Located.ofRules rules) := by
  rw [ofRules_eq_after, conflicts, groups_after, report_groupsOf, List.flatMap_map]
  rfl

end Detector

/--
However the groups of a detector are ordered, it reports the conflicts among the
manipulators that were added, one for each input and set of conditions that is
shared, in the order of keys and conditions.  Looking a trigger up agrees with
the report, every manipulator is counted, and two manipulators have one trigger
exactly if they are for one input and one set of conditions.
-/
theorem Detector.detects_exactly (additions : List Addition) (detector : Detector)
    (holds : detector.groups.Perm (Detector.after additions).groups) :
    Conflict.AreAmong (additions.flatMap Addition.located) detector.conflicts ∧
      (∀ trigger, detector.hasConflict trigger = true ↔
        ∃ conflict ∈ detector.conflicts, conflict.trigger = trigger) ∧
      (∀ located ∈ additions.flatMap Addition.located,
        detector.hasConflict (Trigger.of located.manipulator) = true ↔
          ∃ conflict ∈ detector.conflicts, located ∈ conflict.manipulators) ∧
      detector.total = (additions.flatMap Addition.located).length ∧
      ∀ left right : Manipulator, Trigger.of left = Trigger.of right ↔
        left.from_ = right.from_ ∧ Condition.SameSet left.conditions right.conditions := by
  rw [groups_after] at holds
  refine ⟨areAmong_report holds, hasConflict_iff holds, ?_, ?_, fun left right =>
    Trigger.of_eq_mk_iff⟩
  · intro located member
    exact (exists_mem_iff holds member).symm
  · rw [total, (holds.flatMap_right Prod.snd).length_eq, length_groupsOf]

namespace Sample

def moveLeft : Manipulator where
  from_ := ⟨⟨"h", by decide⟩, none⟩
  onPress := [.press ⟨"left_arrow", by decide⟩]
  conditions := [.variableIf "vim" 1, .variableUnless "hyper" 1]

/-- The same input under the same conditions, which are written in another way. -/
def moveHome : Manipulator where
  from_ := ⟨⟨"h", by decide⟩, none⟩
  onPress := [.press ⟨"home", by decide⟩]
  conditions := [.variableUnless "hyper" 1, .variableIf "vim" 1, .variableUnless "hyper" 1]

/-- The same input under fewer conditions. -/
def moveEnd : Manipulator where
  from_ := ⟨⟨"h", by decide⟩, none⟩
  onPress := [.press ⟨"end", by decide⟩]
  conditions := [.variableIf "vim" 1]

def vimAdditions : List Addition :=
  [.rule ⟨"Vim", [moveLeft, moveEnd]⟩, .manipulator "Editing" moveHome]

/-- The detector of `vimAdditions`, with its groups in the other order. -/
def vimDetector : Detector := ⟨(Detector.after vimAdditions).groups.reverse⟩

theorem same_moves : Condition.SameSet moveHome.conditions moveLeft.conditions := by
  intro condition
  simp only [moveHome, moveLeft, List.mem_cons, List.not_mem_nil, or_false]
  constructor
  · rintro (hyper | vim | hyper)
    · exact .inr hyper
    · exact .inl vim
    · exact .inr hyper
  · rintro (vim | hyper)
    · exact .inr (.inl vim)
    · exact .inl hyper

theorem other_end {conditions : List Condition} (hyper : .variableUnless "hyper" 1 ∈ conditions) :
    ¬ Condition.SameSet moveEnd.conditions conditions ∧
      ¬ Condition.SameSet conditions moveEnd.conditions := by
  have absent : .variableUnless "hyper" 1 ∉ moveEnd.conditions := by decide
  exact ⟨fun same => absent ((same _).2 hyper), fun same => absent ((same _).1 hyper)⟩

theorem alike_left :
    Conflict.alike (vimAdditions.flatMap Addition.located) moveLeft.from_ moveLeft.conditions =
      [⟨"Vim", moveLeft⟩, ⟨"Editing", moveHome⟩] := by
  have left : .variableUnless "hyper" 1 ∈ moveLeft.conditions := by decide
  have self : Condition.SameSet moveLeft.conditions moveLeft.conditions := fun _ => Iff.rfl
  have inputs : moveHome.from_ = moveLeft.from_ ∧ moveEnd.from_ = moveLeft.from_ := ⟨rfl, rfl⟩
  simp [Conflict.alike, vimAdditions, Addition.located, self, inputs, same_moves,
    (other_end left).1]

theorem alike_end :
    Conflict.alike (vimAdditions.flatMap Addition.located) moveEnd.from_ moveEnd.conditions =
      [⟨"Vim", moveEnd⟩] := by
  have left : .variableUnless "hyper" 1 ∈ moveLeft.conditions := by decide
  have home : .variableUnless "hyper" 1 ∈ moveHome.conditions := by decide
  have self : Condition.SameSet moveEnd.conditions moveEnd.conditions := fun _ => Iff.rfl
  simp [Conflict.alike, vimAdditions, Addition.located, self, (other_end left).2,
    (other_end home).2]

theorem vim_detected :
    vimDetector.groups.Perm (Detector.after vimAdditions).groups ∧
      (∃ conflict ∈ vimDetector.conflicts,
        conflict.manipulators = [⟨"Vim", moveLeft⟩, ⟨"Editing", moveHome⟩]) ∧
      vimDetector.hasConflict (Trigger.of moveLeft) = true ∧
      ¬ vimDetector.hasConflict (Trigger.of moveEnd) = true ∧ vimDetector.total = 3 := by
  have holds : vimDetector.groups.Perm (Detector.after vimAdditions).groups :=
    List.reverse_perm _
  rcases Detector.detects_exactly vimAdditions vimDetector holds with
    ⟨among, looked, -, counted, -⟩
  have clash := among.grouped moveLeft.from_ moveLeft.conditions
  have single := among.grouped moveEnd.from_ moveEnd.conditions
  rw [alike_left, if_pos (by decide)] at clash
  rw [alike_end, if_neg (by decide)] at single
  have member := List.mem_filter.1 (clash ▸ List.mem_singleton_self _)
  refine ⟨holds, ⟨_, member.1, rfl⟩, (looked _).2 ⟨_, member.1, rfl⟩, ?_, counted⟩
  intro found
  rcases (looked _).1 found with ⟨conflict, reported, trigger⟩
  refine List.filter_eq_nil_iff.1 single conflict reported (decide_eq_true ?_)
  rw [trigger]
  exact ⟨rfl, fun _ => Condition.mem_sortedSet⟩

end Sample

end KeyLayers
