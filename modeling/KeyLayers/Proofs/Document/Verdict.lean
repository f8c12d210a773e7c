import KeyLayers.Document.Report
import KeyLayers.Proofs.Conflict

/-!
# The verdict on a document

A document is refused for a variable that a manipulator holds, for an event that
is malformed, or for two manipulators of one profile that clash, and for nothing
else (`Document.errors_ne_nil_iff`).  Each of these is found in a single profile,
and none depends on where in the profile a manipulator stands, so the verdict is
the same for a document whose rules and manipulators are in another order.
-/

namespace KeyLayers

/-! ## Manipulators -/

namespace Manipulator

/-- Sets a variable to 1 on key-down and has no reset of it for the key-up. -/
def HoldsOn (manipulator : Manipulator) : Prop :=
  ∃ assignment extra, .setVariable assignment extra ∈ manipulator.onPress ∧
    assignment.value = 1 ∧ assignment.keyUpValue ≠ some 0 ∧
      ∀ reset members, .setVariable reset members ∈ manipulator.onRelease →
        reset.name = assignment.name → reset.value ≠ 0

/-- Has an event that does not pass its check. -/
def IsMalformed (manipulator : Manipulator) : Prop :=
  ∃ event, (event ∈ manipulator.onPress ∨ event ∈ manipulator.ifAlone ∨
    event ∈ manipulator.onRelease) ∧ event.check ≠ .ok ()

variable {manipulator : Manipulator} {name : String} {value : Int}

theorem mem_setsOnRelease :
    name ∈ manipulator.setsOnRelease value ↔
      ∃ reset members, .setVariable reset members ∈ manipulator.onRelease ∧
        reset.name = name ∧ reset.value = value := by
  rw [setsOnRelease, List.mem_filterMap]
  constructor
  · rintro ⟨event, member, found⟩
    cases event with
    | setVariable reset members =>
        rw [Event.variableSet?, Option.ite_none_right_eq_some, Option.some.injEq] at found
        exact ⟨reset, members, member, found.2, found.1⟩
    | _ => cases found
  · rintro ⟨reset, members, member, rfl, rfl⟩
    exact ⟨_, member, if_pos rfl⟩

theorem mem_heldVariables :
    name ∈ manipulator.heldVariables ↔
      ∃ assignment extra, .setVariable assignment extra ∈ manipulator.onPress ∧
        assignment.name = name ∧ assignment.value = 1 ∧ assignment.keyUpValue ≠ some 0 ∧
          name ∉ manipulator.setsOnRelease 0 := by
  simp only [heldVariables, List.mem_filter, List.mem_filterMap, Bool.not_eq_true',
    List.contains_eq_mem, decide_eq_false_iff_not]
  constructor
  · rintro ⟨⟨event, member, found⟩, unset⟩
    cases event with
    | setVariable assignment extra =>
        rw [heldBy?, Option.ite_none_right_eq_some, Option.some.injEq] at found
        exact ⟨assignment, extra, member, found.2, found.1.1, found.1.2, unset⟩
    | _ => cases found
  · rintro ⟨assignment, extra, member, rfl, one, up, unset⟩
    exact ⟨⟨_, member, if_pos ⟨one, up⟩⟩, unset⟩

theorem heldVariables_ne_nil_iff : manipulator.heldVariables ≠ [] ↔ manipulator.HoldsOn := by
  constructor
  · intro some
    rcases List.exists_mem_of_ne_nil _ some with ⟨name, member⟩
    rcases mem_heldVariables.1 member with ⟨assignment, extra, sets, rfl, one, up, unset⟩
    refine ⟨assignment, extra, sets, one, up, ?_⟩
    intro reset members among same zero
    exact unset (mem_setsOnRelease.2 ⟨reset, members, among, same, zero⟩)
  · rintro ⟨assignment, extra, sets, one, up, unset⟩
    apply List.ne_nil_of_mem (a := assignment.name)
    refine mem_heldVariables.2 ⟨assignment, extra, sets, rfl, one, up, ?_⟩
    intro member
    rcases mem_setsOnRelease.1 member with ⟨reset, members, among, same, zero⟩
    exact unset reset members among same zero

theorem checkEvents_ne_ok_iff :
    checkEvents manipulator.events ≠ .ok () ↔ manipulator.IsMalformed := by
  rw [checkEvents, ne_eq, checkAll_eq_ok_iff]
  simp only [events, List.mem_append, or_assoc, not_forall, IsMalformed, exists_prop, ne_eq]

/-- A manipulator has a problem of its own if it holds a variable or is malformed. -/
theorem problems_ne_nil_iff :
    manipulator.problems ≠ [] ↔ manipulator.HoldsOn ∨ manipulator.IsMalformed := by
  rw [problems, ← heldVariables_ne_nil_iff, ← checkEvents_ne_ok_iff]
  cases checkEvents manipulator.events <;> simp

theorem severity_of_mem_problems {problem : Problem} (member : problem ∈ manipulator.problems) :
    problem.severity = .error := by
  rw [problems, List.mem_append, List.mem_map] at member
  rcases member with ⟨name, -, rfl⟩ | member
  · rfl
  · split at member
    · cases member
    · rw [List.mem_singleton.1 member]
      rfl

theorem ne_conflict_of_mem_problems {problem : Problem}
    (member : problem ∈ manipulator.problems) {profile : String} {conflict : Conflict} :
    problem ≠ .conflict profile conflict := by
  rintro rfl
  rw [problems, List.mem_append, List.mem_map] at member
  rcases member with ⟨name, -, same⟩ | member
  · cases same
  · split at member
    · cases member
    · cases List.mem_singleton.1 member

end Manipulator

/-- A problem of a rule is a warning that it is empty or a problem of a manipulator. -/
theorem Rule.mem_problems {rule : Rule} {problem : Problem} :
    problem ∈ rule.problems ↔
      (rule.manipulators = [] ∧ problem = .emptyRule) ∨
        ∃ manipulator ∈ rule.manipulators, problem ∈ manipulator.problems := by
  rw [Rule.problems, List.mem_append, List.mem_flatMap]
  cases rule.manipulators <;> simp

theorem Rule.ne_conflict_of_mem_problems {rule : Rule} {problem : Problem}
    (member : problem ∈ rule.problems) {profile : String} {conflict : Conflict} :
    problem ≠ .conflict profile conflict := by
  rcases Rule.mem_problems.1 member with ⟨-, rfl⟩ | ⟨manipulator, -, member⟩
  · rintro ⟨⟩
  · exact Manipulator.ne_conflict_of_mem_problems member

/-! ## Profiles -/

namespace Profile

/-- The manipulator at a position, which counts the rules and the manipulators of each rule. -/
def manipulatorAt? (profile : Profile) (position : Nat × Nat) : Option Manipulator :=
  (profile.rules[position.1]?).bind fun rule => rule.manipulators[position.2]?

/-- What keeps a document with such a profile from being written. -/
inductive Faulty (profile : Profile) : Prop where
  | holds {rule : Rule} {manipulator : Manipulator} (among : rule ∈ profile.rules)
      (member : manipulator ∈ rule.manipulators) (holds : manipulator.HoldsOn)
  | malformed {rule : Rule} {manipulator : Manipulator} (among : rule ∈ profile.rules)
      (member : manipulator ∈ rule.manipulators) (malformed : manipulator.IsMalformed)
  /-- Of two manipulators at different positions only the first can fire. -/
  | clash {first second : Nat × Nat} {left right : Manipulator} (different : first ≠ second)
      (atFirst : profile.manipulatorAt? first = some left)
      (atSecond : profile.manipulatorAt? second = some right) (clashes : left.Clashes right)

/-- The same rules in another order, each with its manipulators in another order. -/
def Reordered (profile other : Profile) : Prop :=
  ∃ rules : List Rule, profile.rules.Perm rules ∧
    List.Forall₂ (fun rule same => rule.manipulators.Perm same.manipulators) rules other.rules

variable {profile other : Profile}

theorem Reordered.manipulators (reordered : profile.Reordered other) :
    (profile.rules.flatMap Rule.manipulators).Perm
      (other.rules.flatMap Rule.manipulators) := by
  rcases reordered with ⟨rules, perm, each⟩
  apply (perm.flatMap_right Rule.manipulators).trans
  generalize other.rules = target at each
  clear perm
  induction each with
  | nil => exact .nil
  | cons same _ ih => exact same.append ih

end Profile

theorem Manipulator.not_clashes_symm {left right : Manipulator} (apart : ¬ left.Clashes right) :
    ¬ right.Clashes left := by
  rw [Manipulator.clashes_iff] at apart ⊢
  exact fun same => apart same.symm

/-- Where items are apart whatever their order, those at different places are. -/
theorem rel_of_pairwise {α : Type} {rel : α → α → Prop} {items : List α}
    (symm : ∀ {left right}, rel left right → rel right left) (apart : items.Pairwise rel)
    {first second : Nat} {left right : α} (different : first ≠ second)
    (atFirst : items[first]? = some left) (atSecond : items[second]? = some right) :
    rel left right := by
  rw [List.pairwise_iff_getElem] at apart
  rcases List.getElem?_eq_some_iff.1 atFirst with ⟨_, rfl⟩
  rcases List.getElem?_eq_some_iff.1 atSecond with ⟨_, rfl⟩
  rcases Nat.lt_or_gt_of_ne different with before | after
  · exact apart _ _ _ _ before
  · exact symm (apart _ _ _ _ after)

namespace Profile

variable {profile other : Profile}

theorem manipulatorAt?_eq_some_iff {i j : Nat} {manipulator : Manipulator} :
    profile.manipulatorAt? (i, j) = some manipulator ↔
      ∃ rule, profile.rules[i]? = some rule ∧ rule.manipulators[j]? = some manipulator :=
  Option.bind_eq_some_iff

/-- If no manipulator clashes with a later one, none clashes with one at another position. -/
theorem not_clashes_of_pairwise
    (apart : (profile.rules.flatMap Rule.manipulators).Pairwise fun left right =>
      ¬ left.Clashes right)
    {first second : Nat × Nat} {left right : Manipulator} (different : first ≠ second)
    (atFirst : profile.manipulatorAt? first = some left)
    (atSecond : profile.manipulatorAt? second = some right) : ¬ left.Clashes right := by
  rcases List.pairwise_flatMap.1 apart with ⟨inside, across⟩
  rcases first with ⟨i, j⟩
  rcases second with ⟨k, l⟩
  rcases manipulatorAt?_eq_some_iff.1 atFirst with ⟨rule, here, member⟩
  rcases manipulatorAt?_eq_some_iff.1 atSecond with ⟨rule', there, member'⟩
  by_cases same : i = k
  · subst same
    cases here.symm.trans there
    have apart : j ≠ l := fun equal => different (by rw [equal])
    exact rel_of_pairwise Manipulator.not_clashes_symm
      (inside rule (List.mem_of_getElem? here)) apart member member'
  · have symm {rule rule' : Rule}
        (apart : ∀ left ∈ rule.manipulators, ∀ right ∈ rule'.manipulators,
          ¬ left.Clashes right) :
        ∀ left ∈ rule'.manipulators, ∀ right ∈ rule.manipulators, ¬ left.Clashes right :=
      fun left first right second =>
        Manipulator.not_clashes_symm (apart right second left first)
    exact rel_of_pairwise symm across same here there left (List.mem_of_getElem? member)
      right (List.mem_of_getElem? member')

/-- If no manipulator clashes with one at another position, none clashes with a later one. -/
theorem pairwise_of_not_clashes
    (apart : ∀ first second left right, first ≠ second →
      profile.manipulatorAt? first = some left → profile.manipulatorAt? second = some right →
        ¬ left.Clashes right) :
    (profile.rules.flatMap Rule.manipulators).Pairwise fun left right =>
      ¬ left.Clashes right := by
  rw [List.pairwise_flatMap]
  constructor
  · intro rule among
    rcases List.getElem?_of_mem among with ⟨i, here⟩
    rw [List.pairwise_iff_getElem]
    intro j l bound bound' before
    refine apart (i, j) (i, l) _ _ ?_ ?_ ?_
    · intro same
      exact Nat.ne_of_lt before (congrArg Prod.snd same)
    · exact manipulatorAt?_eq_some_iff.2 ⟨rule, here, List.getElem?_eq_getElem bound⟩
    · exact manipulatorAt?_eq_some_iff.2 ⟨rule, here, List.getElem?_eq_getElem bound'⟩
  · rw [List.pairwise_iff_getElem]
    intro i k bound bound' before left first right second
    rcases List.getElem?_of_mem first with ⟨j, here⟩
    rcases List.getElem?_of_mem second with ⟨l, there⟩
    refine apart (i, j) (k, l) left right ?_ ?_ ?_
    · intro same
      exact Nat.ne_of_lt before (congrArg Prod.fst same)
    · exact manipulatorAt?_eq_some_iff.2 ⟨_, List.getElem?_eq_getElem bound, here⟩
    · exact manipulatorAt?_eq_some_iff.2 ⟨_, List.getElem?_eq_getElem bound', there⟩

/-- Manipulators clash exactly if two of them do in the order in which they are tried. -/
theorem exists_clash_iff :
    (∃ first second left right, first ≠ second ∧
        profile.manipulatorAt? first = some left ∧
          profile.manipulatorAt? second = some right ∧ left.Clashes right) ↔
      ¬ (profile.rules.flatMap Rule.manipulators).Pairwise fun left right =>
        ¬ left.Clashes right := by
  constructor
  · rintro ⟨first, second, left, right, different, atFirst, atSecond, clashes⟩ apart
    exact not_clashes_of_pairwise apart different atFirst atSecond clashes
  · intro clash
    by_contra none
    apply clash
    apply pairwise_of_not_clashes
    intro first second left right different atFirst atSecond clashes
    exact none ⟨first, second, left, right, different, atFirst, atSecond, clashes⟩

/-- A profile is faulty for a manipulator of its own, or for two of them. -/
theorem faulty_iff :
    profile.Faulty ↔
      (∃ manipulator ∈ profile.rules.flatMap Rule.manipulators, manipulator.problems ≠ []) ∨
        Conflict.among (Located.ofRules profile.rules) ≠ [] := by
  rw [ne_eq (Conflict.among _), Conflict.among_eq_nil_iff_pairwise, ← exists_clash_iff]
  simp only [List.mem_flatMap, Manipulator.problems_ne_nil_iff]
  constructor
  · intro faulty
    cases faulty with
    | holds among member holds => exact Or.inl ⟨_, ⟨_, among, member⟩, Or.inl holds⟩
    | malformed among member malformed =>
        exact Or.inl ⟨_, ⟨_, among, member⟩, Or.inr malformed⟩
    | clash different atFirst atSecond clashes =>
        exact Or.inr ⟨_, _, _, _, different, atFirst, atSecond, clashes⟩
  · rintro (⟨manipulator, ⟨rule, among, member⟩, holds | malformed⟩ |
      ⟨first, second, left, right, different, atFirst, atSecond, clashes⟩)
    · exact .holds among member holds
    · exact .malformed among member malformed
    · exact .clash different atFirst atSecond clashes

/-- Whether a profile is faulty does not depend on the order in it. -/
theorem Reordered.faulty_iff (reordered : profile.Reordered other) :
    profile.Faulty ↔ other.Faulty := by
  have perm := reordered.manipulators
  rw [Profile.faulty_iff, Profile.faulty_iff, ne_eq (Conflict.among _), ne_eq (Conflict.among _),
    Conflict.among_eq_nil_iff_pairwise, Conflict.among_eq_nil_iff_pairwise,
    perm.pairwise_iff Manipulator.not_clashes_symm]
  simp only [perm.mem_iff]

/-- An issue of a profile is a problem of a rule or a conflict. -/
theorem mem_issues {issue : Issue} :
    issue ∈ profile.issues ↔
      (∃ rule ∈ profile.rules, ∃ problem ∈ rule.problems, ⟨rule.description, problem⟩ = issue) ∨
        ∃ conflict ∈ Conflict.among (Located.ofRules profile.rules),
          conflict.issue profile.name = issue := by
  simp only [issues, List.mem_append, List.mem_flatMap, List.mem_map]

/-- A profile has an issue that is an error exactly if it is faulty. -/
theorem exists_error_iff :
    (∃ issue ∈ profile.issues, issue.problem.severity = .error) ↔ profile.Faulty := by
  rw [Profile.faulty_iff]
  simp only [mem_issues, List.mem_flatMap]
  constructor
  · rintro ⟨issue, ⟨rule, among, problem, member, rfl⟩ | ⟨conflict, member, rfl⟩, severe⟩
    · rcases Rule.mem_problems.1 member with ⟨-, rfl⟩ | ⟨manipulator, inside, found⟩
      · cases severe
      · exact Or.inl ⟨manipulator, ⟨rule, among, inside⟩, List.ne_nil_of_mem found⟩
    · exact Or.inr (List.ne_nil_of_mem member)
  · rintro (⟨manipulator, ⟨rule, among, inside⟩, some⟩ | some)
    · rcases List.exists_mem_of_ne_nil _ some with ⟨problem, found⟩
      exact ⟨⟨rule.description, problem⟩,
        Or.inl ⟨rule, among, problem, Rule.mem_problems.2 (.inr ⟨manipulator, inside, found⟩),
          rfl⟩,
        Manipulator.severity_of_mem_problems found⟩
    · rcases List.exists_mem_of_ne_nil _ some with ⟨conflict, found⟩
      exact ⟨conflict.issue profile.name, Or.inr ⟨conflict, found, rfl⟩, rfl⟩

/-- The manipulators of a conflict are some of the profile, in their order. -/
theorem of_mem_among {conflict : Conflict}
    (member : conflict ∈ Conflict.among (Located.ofRules profile.rules)) :
    1 < conflict.manipulators.length ∧
      conflict.manipulators.Sublist (Located.ofRules profile.rules) := by
  rcases List.mem_map.1 member with ⟨trigger, among, rfl⟩
  rw [List.mem_mergeSort, List.mem_filter] at among
  exact ⟨of_decide_eq_true among.2, List.filter_sublist⟩

end Profile

/-! ## Documents -/

namespace Document

variable {document : Document}

/-- An issue is the warning that there are no profiles or an issue of a profile. -/
theorem mem_issues {issue : Issue} :
    issue ∈ document.issues ↔
      (document.profiles = [] ∧ issue = ⟨"", .noProfiles⟩) ∨
        ∃ profile ∈ document.profiles, issue ∈ profile.issues := by
  rw [issues, List.mem_append, List.mem_flatMap]
  cases document.profiles <;> simp

theorem mem_errors {issue : Issue} :
    issue ∈ document.errors ↔
      ∃ profile ∈ document.profiles, issue ∈ profile.issues ∧ issue.problem.severity = .error := by
  rw [errors, List.mem_filter, mem_issues, beq_iff_eq]
  constructor
  · rintro ⟨⟨-, rfl⟩ | ⟨profile, among, found⟩, severe⟩
    · cases severe
    · exact ⟨profile, among, found, severe⟩
  · rintro ⟨profile, among, found, severe⟩
    exact ⟨Or.inr ⟨profile, among, found⟩, severe⟩

/-- A document has errors exactly if one of its profiles is faulty. -/
theorem errors_ne_nil_iff :
    document.errors ≠ [] ↔ ∃ profile ∈ document.profiles, profile.Faulty := by
  simp only [← Profile.exists_error_iff]
  constructor
  · intro some
    rcases List.exists_mem_of_ne_nil _ some with ⟨issue, member⟩
    rcases mem_errors.1 member with ⟨profile, among, found, severe⟩
    exact ⟨profile, among, issue, found, severe⟩
  · rintro ⟨profile, among, issue, found, severe⟩
    exact List.ne_nil_of_mem (mem_errors.2 ⟨profile, among, found, severe⟩)

/-- A conflict that is reported is one of the manipulators of a single profile. -/
theorem of_conflict {issue : Issue} {name : String} {conflict : Conflict}
    (member : issue ∈ document.issues) (same : issue.problem = .conflict name conflict) :
    ∃ profile ∈ document.profiles, profile.name = name ∧
      1 < conflict.manipulators.length ∧
        conflict.manipulators.Sublist (Located.ofRules profile.rules) := by
  rcases mem_issues.1 member with ⟨-, rfl⟩ | ⟨profile, among, found⟩
  · cases same
  · refine ⟨profile, among, ?_⟩
    rcases Profile.mem_issues.1 found with ⟨rule, -, problem, inside, rfl⟩ | ⟨_, reported, rfl⟩
    · exact absurd same (Rule.ne_conflict_of_mem_problems inside)
    · cases same
      exact ⟨rfl, Profile.of_mem_among reported⟩

/--
A document has errors exactly if one of its profiles has a manipulator that holds
a variable or is malformed, or two that clash.  The order of the rules and of the
manipulators of a profile does not matter, and a conflict is always one between
manipulators of a single profile.
-/
theorem verdict_exact (document : Document) :
    (document.errors ≠ [] ↔ ∃ profile ∈ document.profiles, profile.Faulty) ∧
    (∀ other : Document,
      List.Forall₂ Profile.Reordered document.profiles other.profiles →
        (document.errors ≠ [] ↔ other.errors ≠ [])) ∧
    ∀ issue ∈ document.issues, ∀ name conflict, issue.problem = .conflict name conflict →
      ∃ profile ∈ document.profiles, profile.name = name ∧
        1 < conflict.manipulators.length ∧
          conflict.manipulators.Sublist (Located.ofRules profile.rules) := by
  refine ⟨errors_ne_nil_iff, ?_, ?_⟩
  · intro other reordered
    rw [errors_ne_nil_iff, errors_ne_nil_iff]
    generalize document.profiles = profiles at reordered ⊢
    generalize other.profiles = others at reordered ⊢
    induction reordered with
    | nil => rfl
    | cons same _ ih =>
        simp only [List.mem_cons, exists_eq_or_imp, same.faulty_iff, ih]
  · intro issue member name conflict same
    exact of_conflict member same

end Document

namespace Sample

def keyJ : Key := ⟨"j", by decide⟩

/-- A key whose manipulator waits for two variables, in an order of the author's choice. -/
def waiting (conditions : List Condition) : Manipulator where
  from_ := .anyModifiers keyJ
  conditions := conditions

/-- The same two conditions in another order and with one of them written twice. -/
def twinRules : List Rule :=
  [⟨"First", [waiting [.variableIf "a" 1, .variableIf "b" 1]]⟩,
    ⟨"Second", [waiting [.variableIf "b" 1, .variableIf "a" 1, .variableIf "b" 1]]⟩]

def twinDocument (rules : List Rule) : Document where
  global := []
  profiles := [⟨"Default", none, rules⟩]

theorem twins_reordered :
    List.Forall₂ Profile.Reordered (twinDocument twinRules).profiles
      (twinDocument twinRules.reverse).profiles :=
  .cons ⟨twinRules.reverse, twinRules.reverse_perm.symm, .cons (.refl _) (.cons (.refl _) .nil)⟩
    .nil

theorem twins_clash :
    (waiting [.variableIf "a" 1, .variableIf "b" 1]).Clashes
      (waiting [.variableIf "b" 1, .variableIf "a" 1, .variableIf "b" 1]) := by
  refine ⟨rfl, ?_⟩
  intro condition
  simp only [waiting, List.mem_cons, List.not_mem_nil, or_false]
  tauto

theorem twins_faulty : Profile.Faulty ⟨"Default", none, twinRules⟩ := by
  have apart : ((0, 0) : Nat × Nat) ≠ (1, 0) := by decide
  exact .clash apart rfl rfl twins_clash

/-- The twins are refused in either order of their rules, as a conflict of that profile. -/
theorem twins_verdict :
    (twinDocument twinRules).errors ≠ [] ∧ (twinDocument twinRules.reverse).errors ≠ [] ∧
      ∃ issue ∈ (twinDocument twinRules).issues, ∃ name conflict,
        issue.problem = .conflict name conflict ∧
          conflict.manipulators.Sublist (Located.ofRules twinRules) := by
  rcases Document.verdict_exact (twinDocument twinRules) with ⟨verdict, order, conflicts⟩
  have refused := verdict.2 ⟨_, .head _, twins_faulty⟩
  refine ⟨refused, (order _ twins_reordered).1 refused, ?_⟩
  have reported : Conflict.among (Located.ofRules twinRules) ≠ [] := by
    rw [ne_eq, Conflict.among_eq_nil_iff_pairwise]
    intro apart
    exact List.rel_of_pairwise_cons apart (.head _) twins_clash
  rcases List.exists_mem_of_ne_nil _ reported with ⟨conflict, found⟩
  have member : conflict.issue "Default" ∈ (twinDocument twinRules).issues := by
    refine Document.mem_issues.2 (.inr ⟨_, .head _, ?_⟩)
    exact Profile.mem_issues.2 (.inr ⟨conflict, found, rfl⟩)
  rcases conflicts _ member "Default" conflict rfl with ⟨profile, among, -, -, sublist⟩
  cases List.mem_singleton.1 among
  exact ⟨_, member, "Default", conflict, rfl, sublist⟩

end Sample

end KeyLayers
