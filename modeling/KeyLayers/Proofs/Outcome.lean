import Mathlib.Data.List.Basic
import Mathlib.Data.List.Forall2

/-!
# Taking outcomes apart

What a computation that may fail has done, read off its outcome: a sequence
succeeds when all of its steps do, and fails with the first error; a list of
pairs that pairs no key twice is looked up for the pairs in it.
-/

namespace KeyLayers

section

variable {ε ε' α β : Type}

@[simp]
theorem bind_eq_ok_iff {first : Except ε α} {next : α → Except ε β} {result : β} :
    (first >>= next) = .ok result ↔
      ∃ value, first = .ok value ∧ next value = .ok result := by
  cases first <;> simp [bind, Except.bind]

@[simp]
theorem bind_eq_error_iff {first : Except ε α} {next : α → Except ε β} {error : ε} :
    (first >>= next) = .error error ↔
      first = .error error ∨ ∃ value, first = .ok value ∧ next value = .error error := by
  cases first <;> simp [bind, Except.bind]

@[simp]
theorem pure_eq_ok_iff {value result : α} :
    (pure value : Except ε α) = .ok result ↔ value = result := by
  simp [pure, Except.pure]

@[simp]
theorem pure_ne_error {value : α} {error : ε} :
    (pure value : Except ε α) ≠ .error error := by
  simp [pure, Except.pure]

@[simp]
theorem map_eq_ok_iff {first : Except ε α} {f : α → β} {result : β} :
    first.map f = .ok result ↔ ∃ value, first = .ok value ∧ f value = result := by
  cases first <;> simp [Except.map]

@[simp]
theorem map_eq_error_iff {first : Except ε α} {f : α → β} {error : ε} :
    first.map f = .error error ↔ first = .error error := by
  cases first <;> simp [Except.map]

@[simp]
theorem mapError_eq_ok_iff {first : Except ε α} {f : ε → ε'} {result : α} :
    first.mapError f = .ok result ↔ first = .ok result := by
  cases first <;> simp [Except.mapError]

@[simp]
theorem mapError_eq_error_iff {first : Except ε α} {f : ε → ε'} {error : ε'} :
    first.mapError f = .error error ↔ ∃ inner, first = .error inner ∧ f inner = error := by
  cases first <;> simp [Except.mapError]

/-- Each result of a pass over a list comes from one of its items. -/
theorem exists_of_mapM {f : α → Except ε β} {items : List α} {values : List β}
    (found : items.mapM f = .ok values) {value : β} (member : value ∈ values) :
    ∃ item ∈ items, f item = .ok value := by
  induction items generalizing values with
  | nil =>
      cases found
      cases member
  | cons item rest ih =>
      simp only [List.mapM_cons, bind_eq_ok_iff, pure_eq_ok_iff] at found
      obtain ⟨first, head, others, tail, rfl⟩ := found
      rcases List.mem_cons.1 member with rfl | later
      · exact ⟨item, List.mem_cons_self, head⟩
      · obtain ⟨other, among, read⟩ := ih tail later
        exact ⟨other, List.mem_cons_of_mem _ among, read⟩

/-- A pass over a list fails for one of its items. -/
theorem exists_of_mapM_eq_error {f : α → Except ε β} {items : List α} {error : ε}
    (failed : items.mapM f = .error error) : ∃ item ∈ items, f item = .error error := by
  induction items with
  | nil => cases failed
  | cons item rest ih =>
      simp only [List.mapM_cons, bind_eq_error_iff, pure_ne_error, and_false, exists_false,
        or_false] at failed
      rcases failed with here | ⟨value, -, later⟩
      · exact ⟨item, List.mem_cons_self, here⟩
      · obtain ⟨other, among, wrong⟩ := ih later
        exact ⟨other, List.mem_cons_of_mem _ among, wrong⟩

/-- A pass over a list succeeds if it does so on every item. -/
theorem mapM_eq_ok_iff {f : α → Except ε β} {items : List α} {values : List β} :
    items.mapM f = .ok values ↔
      List.Forall₂ (fun item value => f item = .ok value) items values := by
  induction items generalizing values with
  | nil => rw [List.mapM_nil, pure_eq_ok_iff, List.forall₂_nil_left_iff, eq_comm]
  | cons item rest ih =>
      simp only [List.mapM_cons, bind_eq_ok_iff, pure_eq_ok_iff, ih, List.forall₂_cons_left_iff]
      constructor
      · rintro ⟨value, head, others, tail, rfl⟩
        exact ⟨value, others, head, tail, rfl⟩
      · rintro ⟨value, others, head, tail, rfl⟩
        exact ⟨value, head, others, tail, rfl⟩

theorem mem_of_lookup [BEq α] [LawfulBEq α] {entries : List (α × β)} {key : α} {value : β}
    (found : entries.lookup key = some value) : (key, value) ∈ entries := by
  rcases List.lookup_eq_some_iff.1 found with ⟨before, after, rfl, -⟩
  simp

theorem lookup_eq_none_iff [BEq α] [LawfulBEq α] {entries : List (α × β)} {key : α} :
    entries.lookup key = none ↔ key ∉ entries.map Prod.fst := by
  rw [List.lookup_eq_none_iff, List.mem_map]
  constructor
  · rintro absent ⟨entry, member, rfl⟩
    exact bne_iff_ne.1 (absent entry member) rfl
  · exact fun absent entry member => bne_iff_ne.2 fun same => absent ⟨entry, member, same.symm⟩

theorem lookup_eq_some_iff [BEq α] [LawfulBEq α] {entries : List (α × β)}
    (unique : (entries.map Prod.fst).Nodup) {key : α} {value : β} :
    entries.lookup key = some value ↔ (key, value) ∈ entries := by
  constructor
  · exact mem_of_lookup
  · intro member
    rcases List.append_of_mem member with ⟨before, after, rfl⟩
    apply List.lookup_eq_some_iff.2
    refine ⟨before, after, rfl, ?_⟩
    intro other earlier
    have different : other.1 ≠ key := by
      intro same
      rw [List.map_append, List.map_cons] at unique
      exact (List.nodup_append.1 unique).2.2 other.1 (List.mem_map_of_mem earlier) key
        List.mem_cons_self same
    simpa using Ne.symm different

end

end KeyLayers
