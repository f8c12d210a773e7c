import KeyLayers.Layer.Compilation
import Mathlib.Data.List.Induction
import Mathlib.Logic.Function.Basic

/-!
# Paths and the names of their variables

The chain of a path grows by one layer with every key, and its members are the
nonempty prefixes of the path.

The name of a variable is the base, one underscore, and the names of the keys
with two underscores between them.  No key has a name with two underscores in a
row or with one at its end, so the first two underscores in a row end the first
key.  The path can therefore be read back off the name, and different paths
have different variables (`LeaderPath.state_injective`).
-/

namespace KeyLayers

namespace LeaderPath

/-! ## Prefixes -/

@[ext]
theorem ext {left right : LeaderPath} (same : left.keys = right.keys) :
    left = right := by
  cases left
  cases right
  cases same
  rfl

@[simp]
theorem keys_child (path : LeaderPath) (key : Key) :
    (path.child key).keys = path.keys ++ [key] := rfl

@[simp]
theorem keys_root : root.keys = [] := rfl

theorem child_ne_root (path : LeaderPath) (key : Key) :
    path.child key ≠ root := by
  intro same
  have keys := congrArg LeaderPath.keys same
  simp at keys

theorem child_injective {left right : LeaderPath} {first second : Key}
    (same : left.child first = right.child second) :
    left = right ∧ first = second := by
  have keys := congrArg LeaderPath.keys same
  rw [keys_child, keys_child] at keys
  rcases List.append_inj' keys rfl with ⟨paths, last⟩
  exact ⟨ext paths, by simpa using last⟩

@[simp]
theorem chain_root : chain root = [] := rfl

@[simp]
theorem chain_child (path : LeaderPath) (key : Key) :
    (path.child key).chain = path.chain ++ [path.child key] := by
  have shorter : ∀ level ∈ List.range path.depth,
      (⟨(path.keys ++ [key]).take (level + 1)⟩ : LeaderPath) =
        ⟨path.keys.take (level + 1)⟩ := by
    intro level member
    have inside : level + 1 ≤ path.keys.length := List.mem_range.1 member
    rw [List.take_append_of_le_length inside]
  have whole : (path.keys ++ [key]).take (path.depth + 1) = path.keys ++ [key] := by
    apply List.take_of_length_le
    simp [depth]
  calc (path.child key).chain
      = (List.range (path.depth + 1)).map fun level =>
          (⟨(path.keys ++ [key]).take (level + 1)⟩ : LeaderPath) := by
        simp [chain, depth]
    _ = path.chain ++ [path.child key] := by
        rw [List.range_succ, List.map_append, List.map_congr_left shorter]
        simp [chain, whole, child]

theorem forall_mem_chain_child {holds : LeaderPath → Prop} {path : LeaderPath} {key : Key} :
    (∀ layer ∈ (path.child key).chain, holds layer) ↔
      (∀ layer ∈ path.chain, holds layer) ∧ holds (path.child key) := by
  rw [chain_child, List.forall_mem_append, List.forall_mem_singleton]

/-- What holds of the root, and of a path one key further, holds of every path. -/
@[elab_as_elim]
theorem child_induction {motive : LeaderPath → Prop} (outermost : motive root)
    (further : ∀ path key, motive path → motive (path.child key)) (path : LeaderPath) :
    motive path := by
  rcases path with ⟨keys⟩
  induction keys using List.reverseRecOn with
  | nil => exact outermost
  | append_singleton keys key ih => exact further ⟨keys⟩ key ih

/-- The layers on a path are those that its nonempty prefixes lead to. -/
theorem mem_chain_iff {layer path : LeaderPath} :
    layer ∈ path.chain ↔ layer ≠ root ∧ layer.keys <+: path.keys := by
  induction path using child_induction with
  | outermost =>
      constructor
      · intro member
        cases member
      · rintro ⟨inner, isPrefix⟩
        exact (inner (ext (List.prefix_nil.1 isPrefix))).elim
  | further path key ih =>
      rw [chain_child, List.mem_append, ih, List.mem_singleton]
      constructor
      · rintro (⟨inner, isPrefix⟩ | rfl)
        · exact ⟨inner, isPrefix.trans (List.prefix_append path.keys [key])⟩
        · exact ⟨child_ne_root _ _, List.prefix_rfl⟩
      · rintro ⟨inner, isPrefix⟩
        rcases List.prefix_concat_iff.1 isPrefix with same | shorter
        · exact Or.inr (ext same)
        · exact Or.inl ⟨inner, shorter⟩

/-- The last layer on a path is that of the path itself. -/
theorem getLast?_chain (path : LeaderPath) : path.chain.getLast?.getD root = path := by
  induction path using child_induction with
  | outermost => rfl
  | further path key _ => rw [chain_child, List.getLast?_concat, Option.getD_some]

theorem self_mem_chain {path : LeaderPath} (inner : path ≠ root) : path ∈ path.chain :=
  mem_chain_iff.2 ⟨inner, List.prefix_rfl⟩

/-- A path that has all layers of another one begins with it. -/
theorem prefix_of_chain_subset {first second : LeaderPath}
    (within : ∀ layer ∈ first.chain, layer ∈ second.chain) :
    first.keys <+: second.keys := by
  by_cases outermost : first = root
  · rw [outermost]
    exact List.nil_prefix
  · exact (mem_chain_iff.1 (within first (self_mem_chain outermost))).2

/-- A path is known from the layers on it, in whatever order they are given. -/
theorem eq_of_chain {left right : LeaderPath}
    (same : ∀ layer, layer ∈ left.chain ↔ layer ∈ right.chain) : left = right := by
  have forth := prefix_of_chain_subset fun layer => (same layer).1
  have back := prefix_of_chain_subset fun layer => (same layer).2
  exact ext (forth.sublist.eq_of_length_le back.length_le)

theorem ne_of_child_prefix {path other : LeaderPath} {key : Key}
    (isPrefix : (path.child key).keys <+: other.keys) : other ≠ path := by
  rintro rfl
  have shorter := isPrefix.length_le
  rw [keys_child, List.length_append] at shorter
  exact Nat.not_succ_le_self _ shorter

/-- A path leads through one key only after a shorter one. -/
theorem key_of_child_prefix {path other : LeaderPath} {first second : Key}
    (left : (path.child first).keys <+: other.keys)
    (right : (path.child second).keys <+: other.keys) : first = second := by
  rcases left with ⟨leftRest, leftSame⟩
  rcases right with ⟨rightRest, rightSame⟩
  have same := leftSame.trans rightSame.symm
  rw [keys_child, keys_child, List.append_assoc, List.append_assoc,
    List.append_cancel_left_eq] at same
  exact (List.cons.inj same).1

end LeaderPath

/-! ## Segments of a name -/

/-- Whether every underscore of a text is followed by a character that is none. -/
def Key.isSegment : List Char → Bool
  | [] => true
  | c :: rest => (c != '_' || rest.head?.any (· != '_')) && isSegment rest

theorem Key.segments_of_names :
    ∀ name ∈ names, name.toList ≠ [] ∧ isSegment name.toList = true := by
  decide +kernel

theorem Key.name_ne_nil (key : Key) : key.name.toList ≠ [] :=
  (segments_of_names key.name key.known).1

theorem Key.isSegment_name (key : Key) : isSegment key.name.toList = true :=
  (segments_of_names key.name key.known).2

/-- A segment ends where two underscores follow it. -/
theorem Key.segment_unique {left right more rest : List Char}
    (leftSegment : isSegment left = true) (rightSegment : isSegment right = true)
    (same : left ++ '_' :: '_' :: more = right ++ '_' :: '_' :: rest) :
    left = right ∧ more = rest := by
  induction left generalizing right with
  | nil =>
      cases right with
      | nil => simpa using same
      | cons c right =>
          rcases List.cons.inj same with ⟨rfl, next⟩
          cases right with
          | nil => simp [isSegment] at rightSegment
          | cons d right =>
              rcases List.cons.inj next with ⟨rfl, -⟩
              simp [isSegment] at rightSegment
  | cons c left ih =>
      cases right with
      | nil =>
          rcases List.cons.inj same with ⟨rfl, next⟩
          cases left with
          | nil => simp [isSegment] at leftSegment
          | cons d left =>
              rcases List.cons.inj next with ⟨rfl, -⟩
              simp [isSegment] at leftSegment
      | cons d right =>
          simp only [List.cons_append, List.cons.injEq] at same
          rcases same with ⟨rfl, same⟩
          simp only [isSegment, Bool.and_eq_true] at leftSegment rightSegment
          rcases ih leftSegment.2 rightSegment.2 same with ⟨rfl, tails⟩
          exact ⟨rfl, tails⟩

namespace LeaderPath

/-- The names of some keys, each one ended by two underscores. -/
def terminated (keys : List Key) : List Char :=
  keys.flatMap fun key => key.name.toList ++ ['_', '_']

theorem terminated_injective : Function.Injective terminated := by
  intro left right same
  induction left generalizing right with
  | nil =>
      cases right with
      | nil => rfl
      | cons key right => simp [terminated] at same
  | cons key left ih =>
      cases right with
      | nil => simp [terminated] at same
      | cons other right =>
          simp only [terminated, List.flatMap_cons, List.append_assoc, List.cons_append,
            List.nil_append] at same
          rcases Key.segment_unique key.isSegment_name other.isSegment_name same with
            ⟨names, tails⟩
          have keys : key = other := Key.ext (String.toList_inj.1 names)
          rw [keys, ih tails]

theorem intercalate_append_separator {keys : List Key} (nonempty : keys ≠ []) :
    ['_', '_'].intercalate (keys.map fun key => key.name.toList) ++ ['_', '_'] =
      terminated keys := by
  induction keys with
  | nil => exact (nonempty rfl).elim
  | cons key rest ih =>
      cases rest with
      | nil => simp [terminated]
      | cons other rest =>
          have tail := ih (by simp)
          simp only [List.map_cons] at tail
          rw [List.map_cons, List.map_cons, List.intercalate_cons_cons, List.append_assoc,
            tail]
          simp [terminated]

theorem joined_ne_nil {keys : List Key} (nonempty : keys ≠ []) :
    ['_', '_'].intercalate (keys.map fun key => key.name.toList) ≠ [] := by
  cases keys with
  | nil => exact (nonempty rfl).elim
  | cons key rest =>
      cases rest with
      | nil => simpa using key.name_ne_nil
      | cons other rest =>
          simp [List.intercalate_cons_cons]

/-- Different paths have different variables. -/
theorem state_injective (base : String) : Function.Injective (state base) := by
  intro left right same
  have names := congrArg (fun state => state.name.toList) same
  simp only [state, String.toList_append, String.toList_intercalate, List.map_map,
    List.append_cancel_left_eq, Function.comp_def] at names
  change ['_', '_'].intercalate (left.keys.map fun key => key.name.toList) =
    ['_', '_'].intercalate (right.keys.map fun key => key.name.toList) at names
  apply ext
  by_cases leftRoot : left.keys = []
  · by_cases rightRoot : right.keys = []
    · rw [leftRoot, rightRoot]
    · rw [leftRoot] at names
      exact (joined_ne_nil rightRoot names.symm).elim
  · by_cases rightRoot : right.keys = []
    · rw [rightRoot] at names
      exact (joined_ne_nil leftRoot names).elim
    · apply terminated_injective
      rw [← intercalate_append_separator leftRoot, names,
        intercalate_append_separator rightRoot]

theorem state_name_injective (base : String) {left right : LeaderPath}
    (same : (left.state base).name = (right.state base).name) : left = right := by
  apply state_injective base
  exact congrArg StateVariable.mk same

end LeaderPath

/-! ## The namespace of the layers -/

/-- Whether the name of a variable begins as those of the layers do. -/
def CompileOptions.owns (options : CompileOptions) (name : String) : Bool :=
  (options.base ++ "_").toList.isPrefixOf name.toList

@[simp]
theorem CompileOptions.owns_state (options : CompileOptions) (path : LeaderPath) :
    options.owns (path.state options.base).name = true := by
  rw [owns, List.isPrefixOf_iff_prefix]
  simp only [LeaderPath.state, String.toList_append]
  exact List.prefix_append _ _

end KeyLayers
