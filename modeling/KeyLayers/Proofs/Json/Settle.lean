import KeyLayers.Proofs.Json.Record

/-!
# Settled values

The value of a text may give a member twice, and so is not always one that its
own text tells apart.  What a text can be relied on for is that every number in
its value fits (`exact_of_eval?`) and that nothing is nested too deeply.

Settling removes the repetitions and changes nothing else of that: a settled
value is printable (`printable_settle`) and not nested more deeply than before
(`depth_settle_le`).  A value without repetitions whose numbers are finite is
proper, and is settled as it is (`Proper.settled`).
-/

namespace KeyLayers

namespace Members

variable {α : Type} {assignments : List (String × α)}

theorem mem_ofList {member : String × α} (among : member ∈ ofList assignments) :
    member ∈ assignments := by
  suffices more : ∀ front : Members α,
      member ∈ assignments.foldl (fun members entry => members.put entry.1 entry.2) front →
        member ∈ front ∨ member ∈ assignments from
    (more [] among).resolve_left List.not_mem_nil
  clear among
  induction assignments with
  | nil => exact fun front among => .inl among
  | cons entry rest ih =>
      intro front among
      rcases ih (front.put entry.1 entry.2) among with before | later
      · rcases mem_put before with rfl | old
        · exact .inr List.mem_cons_self
        · exact .inl old
      · exact .inr (List.mem_cons_of_mem _ later)

/-- What assignments leave behind has no name twice. -/
theorem each_ofList {holds : α → Prop} (held : ∀ entry ∈ assignments, holds entry.2) :
    Each holds (ofList assignments) := by
  suffices more : ∀ front : Members α, Each holds front →
      Each holds (assignments.foldl (fun members entry => members.put entry.1 entry.2) front) from
    more [] each_nil
  induction assignments with
  | nil => exact fun front each => each
  | cons entry rest ih =>
      intro front each
      exact ih (fun other member => held other (List.mem_cons_of_mem _ member)) _
        (each.put entry.1 (held entry List.mem_cons_self))

end Members

namespace Json

/-! ## Nesting -/

/-- Whether a value is an item or a member of another one. -/
def IsPart (part : Json) : Json → Prop
  | .arr items => part ∈ items
  | .obj members => ∃ name, (name, part) ∈ members
  | _ => False

theorem depthOfItems_le_iff {items : List Json} {limit : Nat} :
    depthOfItems items ≤ limit ↔ ∀ item ∈ items, item.depth ≤ limit := by
  induction items with
  | nil => simp [depthOfItems]
  | cons item rest ih => rw [depthOfItems, Nat.max_le, ih, List.forall_mem_cons]

theorem depthOfMembers_le_iff {members : List (String × Json)} {limit : Nat} :
    depthOfMembers members ≤ limit ↔ ∀ member ∈ members, member.2.depth ≤ limit := by
  induction members with
  | nil => simp [depthOfMembers]
  | cons member rest ih => rw [depthOfMembers, Nat.max_le, ih, List.forall_mem_cons]

theorem IsPart.depth_lt {part whole : Json} (isPart : part.IsPart whole) :
    part.depth < whole.depth := by
  cases whole with
  | arr items => exact Nat.lt_succ_of_le (depthOfItems_le_iff.1 le_rfl part isPart)
  | obj members =>
      rcases isPart with ⟨name, among⟩
      exact Nat.lt_succ_of_le (depthOfMembers_le_iff.1 le_rfl (name, part) among)
  | _ => cases isPart

/-- A container is nested within a limit if its parts stay below it. -/
theorem depth_arr_le {items : List Json} {limit : Nat} (positive : 0 < limit)
    (below : ∀ item ∈ items, item.depth < limit) : (Json.arr items).depth ≤ limit := by
  rw [depth, Nat.succ_le_iff, ← Nat.le_sub_one_iff_lt positive, depthOfItems_le_iff]
  exact fun item member => Nat.le_sub_one_of_lt (below item member)

theorem depth_obj_le {members : List (String × Json)} {limit : Nat} (positive : 0 < limit)
    (below : ∀ member ∈ members, member.2.depth < limit) :
    (Json.obj members).depth ≤ limit := by
  rw [depth, Nat.succ_le_iff, ← Nat.le_sub_one_iff_lt positive, depthOfMembers_le_iff]
  exact fun member among => Nat.le_sub_one_of_lt (below member among)

/-- To prove something of every value, it may be assumed of the parts of a value. -/
theorem induct {motive : Json → Prop}
    (step : ∀ value : Json, (∀ part : Json, part.IsPart value → motive part) → motive value)
    (value : Json) : motive value :=
  step value fun part _ => induct step part
termination_by value.depth
decreasing_by exact IsPart.depth_lt ‹_›

/-- Whether a value stands in another one, at any depth, or is that one. -/
inductive Within (part : Json) : Json → Prop where
  | self : Within part part
  | step {inner whole : Json} (within : Within part inner) (isPart : inner.IsPart whole) :
      Within part whole

theorem IsPart.within {part whole : Json} (isPart : part.IsPart whole) : part.Within whole :=
  .step .self isPart

theorem Within.trans {part middle whole : Json} (inner : part.Within middle)
    (outer : middle.Within whole) : part.Within whole := by
  induction outer with
  | self => exact inner
  | step within isPart ih => exact .step ih isPart

/-! ## Numbers and names -/

/-- Whether every number in a value is one that can be written and read back. -/
structure Exact (value : Json) : Prop where
  ints : ∀ number, Within (.int number) value →
    (Word.isSigned number || Word.isUnsigned number) = true
  floats : ∀ number, Within (.float number) value → number.ReadsBack

/-- Whether no object in a value has two members of one name. -/
def Unrepeated (value : Json) : Prop :=
  ∀ members, Within (.obj members) value → (Members.names members).Nodup

/-- Whether a value is one that is written in JSON: no name is repeated, every number is finite. -/
structure Proper (value : Json) : Prop where
  unrepeated : value.Unrepeated
  finite : ∀ number, Within (.float number) value → number.isFinite = true

mutual

/-- The floating-point numbers in a value. -/
def floats : Json → List Binary64
  | .float number => [number]
  | .arr items => floatsOfItems items
  | .obj members => floatsOfMembers members
  | _ => []

def floatsOfItems : List Json → List Binary64
  | [] => []
  | item :: rest => floats item ++ floatsOfItems rest

def floatsOfMembers : List (String × Json) → List Binary64
  | [] => []
  | (_, value) :: rest => floats value ++ floatsOfMembers rest

end

theorem floats_subset_items {items : List Json} {item : Json} (member : item ∈ items) :
    item.floats ⊆ floatsOfItems items := by
  induction member with
  | head rest => exact List.subset_append_left _ _
  | tail first member ih => exact List.subset_append_of_subset_right _ ih

theorem floats_subset_members {members : List (String × Json)} {member : String × Json}
    (among : member ∈ members) : member.2.floats ⊆ floatsOfMembers members := by
  induction among with
  | head rest => exact List.subset_append_left _ _
  | tail first among ih => exact List.subset_append_of_subset_right _ ih

theorem Within.mem_floats {number : Binary64} {value : Json}
    (within : (Json.float number).Within value) : number ∈ value.floats := by
  induction within with
  | self => exact List.mem_singleton_self number
  | @step inner whole within isPart ih =>
      cases whole with
      | arr items => exact floats_subset_items isPart ih
      | obj members =>
          obtain ⟨name, among⟩ := isPart
          exact floats_subset_members among ih
      | _ => cases isPart

section

variable {part whole value : Json}

theorem Exact.within (exact : whole.Exact) (within : part.Within whole) : part.Exact where
  ints number inner := exact.ints number (inner.trans within)
  floats number inner := exact.floats number (inner.trans within)

theorem Unrepeated.within (unrepeated : whole.Unrepeated) (within : part.Within whole) :
    part.Unrepeated :=
  fun members inner => unrepeated members (inner.trans within)

theorem Proper.within (proper : whole.Proper) (within : part.Within whole) : part.Proper where
  unrepeated := proper.unrepeated.within within
  finite number inner := proper.finite number (inner.trans within)

theorem Exact.printable (exact : value.Exact) (unrepeated : value.Unrepeated) :
    value.Printable := by
  induction value using induct with
  | step value ih =>
      have parts : ∀ part : Json, part.IsPart value → part.Printable := fun part isPart =>
        ih part isPart (exact.within isPart.within) (unrepeated.within isPart.within)
      cases value with
      | null => exact .null
      | bool value => exact .bool value
      | int number => exact .int (exact.ints number .self)
      | float number => exact .float (exact.floats number .self)
      | str text => exact .str text
      | arr items => exact .arr parts
      | obj members =>
          exact .obj (unrepeated members .self) fun member among => parts member.2 ⟨_, among⟩

theorem Printable.within (printable : whole.Printable) (within : part.Within whole) :
    part.Printable := by
  induction within with
  | self => exact printable
  | @step inner whole within isPart ih =>
      apply ih
      cases whole with
      | arr items => exact printable_arr_iff.1 printable inner isPart
      | obj members =>
          rcases isPart with ⟨name, among⟩
          exact (printable_obj_iff.1 printable).each _ among
      | _ => cases isPart

theorem Printable.exact (printable : value.Printable) : value.Exact where
  ints number within := by
    cases printable.within within
    assumption
  floats number within := by
    cases printable.within within
    assumption

end

@[simp]
theorem proper_null : Proper .null :=
  ⟨fun _ => nofun, fun _ => nofun⟩

@[simp]
theorem proper_bool (value : Bool) : Proper (.bool value) :=
  ⟨fun _ => nofun, fun _ => nofun⟩

@[simp]
theorem proper_int (number : Int) : Proper (.int number) :=
  ⟨fun _ => nofun, fun _ => nofun⟩

@[simp]
theorem proper_str (text : String) : Proper (.str text) :=
  ⟨fun _ => nofun, fun _ => nofun⟩

@[simp]
theorem proper_float_iff {number : Binary64} :
    Proper (.float number) ↔ number.isFinite = true := by
  constructor
  · exact fun proper => proper.finite number .self
  · intro finite
    refine ⟨fun _ => nofun, ?_⟩
    rintro other (_ | ⟨-, ⟨⟩⟩)
    exact finite

@[simp]
theorem proper_arr_iff {items : List Json} :
    Proper (.arr items) ↔ ∀ item ∈ items, item.Proper := by
  constructor
  · intro proper item member
    have isPart : item.IsPart (.arr items) := member
    exact proper.within isPart.within
  · intro proper
    constructor
    · rintro members (_ | ⟨within, member⟩)
      exact (proper _ member).unrepeated _ within
    · rintro number (_ | ⟨within, member⟩)
      exact (proper _ member).finite _ within

@[simp]
theorem proper_obj_iff {members : List (String × Json)} :
    Proper (.obj members) ↔ Members.Each Proper members := by
  constructor
  · intro proper
    refine ⟨proper.unrepeated _ .self, fun member among => ?_⟩
    have isPart : member.2.IsPart (.obj members) := ⟨_, among⟩
    exact proper.within isPart.within
  · rintro ⟨distinct, proper⟩
    constructor
    · rintro inner (_ | ⟨within, name, among⟩)
      · exact distinct
      · exact (proper _ among).unrepeated _ within
    · rintro number (_ | ⟨within, name, among⟩)
      exact (proper _ among).finite _ within

/-! ## Settling -/

/-- A value that is written in JSON is taken over as it is. -/
theorem Proper.settled {value : Json} (proper : value.Proper) : value.Settled := by
  induction value using induct with
  | step value ih =>
      have parts : ∀ part : Json, part.IsPart value → part.Settled := fun part isPart =>
        ih part isPart (proper.within isPart.within)
      cases value with
      | null | bool | int | str => rfl
      | float number =>
          rw [Settled, settle, if_pos (proper.finite number .self)]
      | arr items => exact settled_arr parts
      | obj members =>
          apply settled_obj
          exact ⟨proper.unrepeated _ .self, fun member among => parts member.2 ⟨_, among⟩⟩

theorem settledMembers_of_proper {members : List (String × Json)}
    (proper : Proper (.obj members)) : SettledMembers members :=
  (proper_obj_iff.1 proper).mono fun _ => Proper.settled

theorem settleItems_eq (items : List Json) : settleItems items = items.map settle := by
  induction items with
  | nil => rfl
  | cons item rest ih => rw [settleItems, ih, List.map_cons]

theorem settleMembers_eq (members : List (String × Json)) :
    settleMembers members = members.map fun member => (member.1, member.2.settle) := by
  induction members with
  | nil => rfl
  | cons member rest ih => rw [settleMembers, ih, List.map_cons]

theorem printable_settle {value : Json} (exact : value.Exact) : value.settle.Printable := by
  induction value using induct with
  | step value ih =>
      have parts : ∀ part : Json, part.IsPart value → part.settle.Printable :=
        fun part isPart => ih part isPart (exact.within isPart.within)
      cases value with
      | null => exact .null
      | bool value => exact .bool value
      | int number => exact .int (exact.ints number .self)
      | float number =>
          have printable : Printable (.float number) := .float (exact.floats number .self)
          rwa [settle_eq printable]
      | str text => exact .str text
      | arr items =>
          rw [settle, settleItems_eq]
          refine .arr ?_
          rwa [List.forall_mem_map]
      | obj members =>
          rw [settle, settleMembers_eq, printable_obj_iff]
          apply Members.each_ofList
          rw [List.forall_mem_map]
          exact fun member among => parts member.2 ⟨_, among⟩

theorem mem_settleObject {members : List (String × Json)} {member : String × Json}
    (among : member ∈ settleObject members) :
    ∃ original ∈ members, member = (original.1, original.2.settle) := by
  have before := Members.mem_ofList among
  rw [settleMembers_eq] at before
  rcases List.mem_map.1 before with ⟨original, here, rfl⟩
  exact ⟨original, here, rfl⟩

/-- The members of an object are printable once they have been settled. -/
theorem printable_settleObject {members : List (String × Json)}
    (exact : ∀ member ∈ members, member.2.Exact) : PrintableMembers (settleObject members) := by
  rw [settleObject, settleMembers_eq]
  apply Members.each_ofList
  rw [List.forall_mem_map]
  exact fun member among => printable_settle (exact member among)

/-- What is settled is as deep as the original at most. -/
theorem depth_settle_le (value : Json) : value.settle.depth ≤ value.depth := by
  induction value using induct with
  | step value ih =>
      cases value with
      | null | bool | int | str => exact le_rfl
      | float number =>
          rw [settle]
          split
          · exact le_rfl
          · exact le_rfl
      | arr items =>
          rw [settle, settleItems_eq]
          refine depth_arr_le (Nat.succ_pos _) ?_
          rw [List.forall_mem_map]
          intro item member
          have isPart : item.IsPart (.arr items) := member
          exact (ih item isPart).trans_lt isPart.depth_lt
      | obj members =>
          rw [settle]
          exact depth_obj_le (Nat.succ_pos _) fun member among => by
            rcases mem_settleObject among with ⟨original, here, rfl⟩
            have isPart : original.2.IsPart (.obj members) := ⟨_, here⟩
            exact (ih _ isPart).trans_lt isPart.depth_lt

/-! ## Parts that are read -/

theorem isPart_of_known? {names : List String} {members : List (String × Json)}
    {fields : Members Json} (found : known? names members = some fields)
    {member : String × Json} (among : member ∈ fields) : member.2.IsPart (.obj members) := by
  simp only [known?, Option.ite_none_right_eq_some, Option.some.injEq] at found
  rcases found with ⟨-, rfl⟩
  exact ⟨member.1, (List.mem_filter.1 among).1⟩

theorem isPart_of_record? {names : List String} {value : Json} {fields : Members Json}
    (found : value.record? names = some fields) {member : String × Json}
    (among : member ∈ fields) : member.2.IsPart value := by
  cases value with
  | obj members => exact isPart_of_known? found among
  | arr items =>
      simp only [record?, Option.ite_none_right_eq_some, Option.some.injEq] at found
      rcases found with ⟨-, rfl⟩
      exact (List.of_mem_zip among).2
  | _ => cases found

theorem record?_of_closedRecord? {names : List String} {value : Json} {fields : Members Json}
    (found : value.closedRecord? names = some fields) : value.record? names = some fields := by
  cases value with
  | obj members =>
      simp only [closedRecord?, Option.ite_none_right_eq_some] at found
      exact found.2
  | arr items => exact found
  | _ => cases found

theorem of_openRecord? {names : List String} {value : Json} {fields extra : Members Json}
    (found : value.openRecord? names = some (fields, extra)) :
    ∃ members, value = .obj members ∧ known? names members = some fields ∧
      extra = settleObject (others names members) := by
  cases value with
  | obj members =>
      simp only [openRecord?, Option.map_eq_some_iff, Prod.mk.injEq] at found
      rcases found with ⟨fields, known, rfl, rfl⟩
      exact ⟨members, rfl, known, rfl⟩
  | _ => cases found

theorem isPart_of_openRecord? {names : List String} {value : Json} {fields extra : Members Json}
    (found : value.openRecord? names = some (fields, extra)) {member : String × Json}
    (among : member ∈ fields) : member.2.IsPart value := by
  rcases of_openRecord? found with ⟨members, rfl, known, -⟩
  exact isPart_of_known? known among

/-- The other members of a record are those of a part of the value, settled. -/
theorem exists_of_mem_extra {names : List String} {value : Json} {fields extra : Members Json}
    (found : value.openRecord? names = some (fields, extra)) {member : String × Json}
    (among : member ∈ extra) :
    ∃ part : Json, part.IsPart value ∧ member.1 ∉ names ∧ member.2 = part.settle := by
  rcases of_openRecord? found with ⟨members, rfl, -, rfl⟩
  rcases mem_settleObject among with ⟨original, here, rfl⟩
  rcases List.mem_filter.1 here with ⟨here, other⟩
  exact ⟨original.2, ⟨original.1, here⟩, by simpa using other, rfl⟩

theorem apart_of_openRecord? {names : List String} {value : Json} {fields extra : Members Json}
    (found : value.openRecord? names = some (fields, extra)) :
    ∀ name ∈ extra.names, name ∉ names := by
  intro name among
  rcases List.mem_map.1 among with ⟨member, here, rfl⟩
  rcases exists_of_mem_extra found here with ⟨part, -, other, -⟩
  exact other

theorem distinct_settleObject (members : List (String × Json)) :
    (settleObject members).names.Nodup := by
  have each : Members.Each (fun _ => True) (settleObject members) :=
    Members.each_ofList fun _ _ => trivial
  exact each.distinct

theorem distinct_of_openRecord? {names : List String} {value : Json}
    {fields extra : Members Json} (found : value.openRecord? names = some (fields, extra)) :
    extra.names.Nodup := by
  rcases of_openRecord? found with ⟨members, -, -, rfl⟩
  exact distinct_settleObject _

theorem extra_of_openRecord? {names : List String} {value : Json} {fields extra : Members Json}
    (exact : value.Exact) (found : value.openRecord? names = some (fields, extra)) :
    Extra names extra where
  toEach := by
    rcases of_openRecord? found with ⟨members, rfl, -, rfl⟩
    apply printable_settleObject
    intro member among
    have isPart : member.2.IsPart (.obj members) := ⟨_, (List.mem_filter.1 among).1⟩
    exact exact.within isPart.within
  apart := apart_of_openRecord? found

/-- Every value of a list is read from an item. -/
theorem of_list? {α : Type} {read : Json → Option α} {value : Json} {results : List α}
    (found : value.list? read = some results) {result : α} (member : result ∈ results) :
    ∃ item : Json, item.IsPart value ∧ read item = some result := by
  cases value with
  | arr items => exact mem_of_mapM found member
  | _ => cases found

/-! ## The value of a text -/

theorem gather_le {limit start : Nat} {digits : List Nat} (within : start ≤ limit) :
    (Numeral.gather limit start digits).1 ≤ limit := by
  induction digits generalizing start with
  | nil => exact within
  | cons digit rest ih =>
      rw [Numeral.gather]
      split
      · exact within
      next fits => exact ih (Nat.not_lt.1 fits)

/-- A numeral has the value of an integer that fits into a word, or of a number. -/
theorem of_value? {numeral : Numeral} {value : Json} (found : numeral.value? = some value) :
    (∃ number, value = .int number ∧
        (Word.isSigned number || Word.isUnsigned number) = true) ∨
      ∃ number, value = .float number := by
  have float : ∀ {signed : Binary64 → Binary64},
      (numeral.magnitude?.map fun magnitude => Json.float (signed magnitude)) = some value →
      ∃ number, value = .float number := by
    intro signed found
    rcases Option.map_eq_some_iff.1 found with ⟨magnitude, -, rfl⟩
    exact ⟨_, rfl⟩
  simp only [Numeral.value?] at found
  split at found
  next whole _ _ gathered =>
    have small : whole ≤ Numeral.greatestWord := by
      have gathers : (Numeral.gather Numeral.greatestWord 0 numeral.whole).1 ≤
          Numeral.greatestWord := gather_le (Nat.zero_le _)
      rwa [gathered] at gathers
    split at found
    · split at found
      · exact .inr (float found)
      next signed =>
        cases found
        refine .inl ⟨_, rfl, ?_⟩
        simp only [Word.isSigned, Word.isUnsigned, Bool.or_eq_true, Bool.and_eq_true,
          decide_eq_true_eq]
        omega
    · cases found
      refine .inl ⟨_, rfl, ?_⟩
      simp only [Word.isSigned, Word.isUnsigned, Bool.or_eq_true, Bool.and_eq_true,
        decide_eq_true_eq]
      simp only [Numeral.greatestWord, Word.size, Word.half] at small ⊢
      omega
  next => exact .inr (float found)

/-- What is known of the value of a structure that is nested within a limit. -/
structure Evaluated (limit : Nat) (value : Json) : Prop where
  depth : value.depth ≤ limit
  ints : ∀ number, Within (.int number) value →
    (Word.isSigned number || Word.isUnsigned number) = true

theorem evaluated_arr {limit : Nat} {items : List Json}
    (each : ∀ item ∈ items, Evaluated limit item) : Evaluated (limit + 1) (.arr items) where
  depth := depth_arr_le (Nat.succ_pos limit) fun item member =>
    Nat.lt_succ_of_le (each item member).depth
  ints := by
    rintro number (_ | ⟨within, member⟩)
    exact (each _ member).ints number within

theorem evaluated_obj {limit : Nat} {members : List (String × Json)}
    (each : ∀ member ∈ members, Evaluated limit member.2) :
    Evaluated (limit + 1) (.obj members) where
  depth := depth_obj_le (Nat.succ_pos limit) fun member among =>
    Nat.lt_succ_of_le (each member among).depth
  ints := by
    rintro number (_ | ⟨within, name, among⟩)
    exact (each _ among).ints number within

mutual

theorem evaluated_of_eval? : ∀ (source : Source) {limit : Nat} {value : Json},
    source.eval? limit = some value → Evaluated limit value
  | .null, _, _, found => by
      cases found
      exact ⟨Nat.zero_le _, nofun⟩
  | .bool _, _, _, found => by
      cases found
      exact ⟨Nat.zero_le _, nofun⟩
  | .number _, _, _, found => by
      rcases of_value? found with ⟨number, rfl, fits⟩ | ⟨number, rfl⟩
      · refine ⟨Nat.zero_le _, ?_⟩
        rintro other (_ | ⟨-, ⟨⟩⟩)
        exact fits
      · exact ⟨Nat.zero_le _, nofun⟩
  | .string text, _, _, found => by
      rcases Option.map_eq_some_iff.1 found with ⟨text, -, rfl⟩
      exact ⟨Nat.zero_le _, nofun⟩
  | .array items, limit, _, found => by
      cases limit with
      | zero => cases found
      | succ limit =>
          rcases Option.map_eq_some_iff.1 found with ⟨values, read, rfl⟩
          exact evaluated_arr (evaluated_of_evalItems? items read)
  | .object members, limit, _, found => by
      cases limit with
      | zero => cases found
      | succ limit =>
          rcases Option.map_eq_some_iff.1 found with ⟨values, read, rfl⟩
          exact evaluated_obj (evaluated_of_evalMembers? members read)

theorem evaluated_of_evalItems? : ∀ (items : List Source) {limit : Nat} {values : List Json},
    Source.evalItems? limit items = some values → ∀ value ∈ values, Evaluated limit value
  | [], _, _, found => by
      cases found
      exact nofun
  | item :: rest, _, _, found => by
      rw [Source.evalItems?] at found
      split at found
      next value values first others =>
        cases found
        exact List.forall_mem_cons.2
          ⟨evaluated_of_eval? item first, evaluated_of_evalItems? rest others⟩
      next => cases found

theorem evaluated_of_evalMembers? : ∀ (members : List (Option String × Source)) {limit : Nat}
    {values : List (String × Json)}, Source.evalMembers? limit members = some values →
    ∀ member ∈ values, Evaluated limit member.2
  | [], _, _, found => by
      cases found
      exact nofun
  | (name, item) :: rest, _, _, found => by
      rw [Source.evalMembers?.eq_def] at found
      dsimp only at found
      split at found
      next named value values first others =>
        cases found
        exact List.forall_mem_cons.2
          ⟨evaluated_of_eval? item first, evaluated_of_evalMembers? rest others⟩
      next => cases found

end

end Json

end KeyLayers
