import KeyLayers.Proofs.Engine.Gate
import KeyLayers.Proofs.Layer.Expansion
import Mathlib.Order.Lattice.Nat

/-!
# Which manipulator a key fires

While at most one layer of each path is held, the held layers lie on one path,
and all entries away from it are blocked: those inside a layer that is not held
by its variable, and the layers beside a held one by its exclusion.  What is
left on a key are the entry of the innermost held layer and the leaves of the
layers around it.  As the manipulators inside a layer come before its own
leaves, the first of these is the one furthest in (`firstFit_eq_mostSpecific`).
-/

namespace KeyLayers

/-! ## Specific bindings -/

namespace LeaderPath

/-- The layers that some keys lead through after a path. -/
def beyond (path : LeaderPath) : List Key → List LeaderPath
  | [] => []
  | key :: rest => path.child key :: beyond (path.child key) rest

theorem chain_append (path : LeaderPath) (rest : List Key) :
    (⟨path.keys ++ rest⟩ : LeaderPath).chain = path.chain ++ path.beyond rest := by
  induction rest generalizing path with
  | nil => simp [beyond]
  | cons key rest ih =>
      have step : (⟨path.keys ++ key :: rest⟩ : LeaderPath) =
          ⟨(path.child key).keys ++ rest⟩ := by
        simp
      rw [step, ih, chain_child, beyond, List.append_assoc, List.singleton_append]

theorem chain_eq_beyond (path : LeaderPath) : path.chain = root.beyond path.keys := by
  simpa using chain_append root path.keys

end LeaderPath

namespace TreeEntries

/-- The entry that a layer has on a key, with its place. -/
def placeOf? (tree : TreeEntries) (path : LeaderPath) (key : Key) : Option TreePlace :=
  (tree.layerAt? path.keys).bind fun entries =>
    (entries.lookup key).map fun bound => ⟨path, entries.layerKeys, key, bound⟩

/-- The entry that a layer has on a key, if it is a leaf. -/
def leafOf? (tree : TreeEntries) (path : LeaderPath) (key : Key) : Option TreePlace :=
  (tree.placeOf? path key).filter (!·.tree.isLayer)

/-- The entry of a layer on a key, or else the leaf furthest in around it. -/
def mostSpecific? (tree : TreeEntries) (path : LeaderPath) (key : Key) :
    Option TreePlace :=
  (tree.placeOf? path key).or
    (path.chain.dropLast.reverse.findSome? (tree.leafOf? · key))

/-- The innermost layer of a tree that is held together with all layers around it. -/
structure Innermost (tree : TreeEntries) (held : LeaderPath → Prop) (path : LeaderPath) :
    Prop where
  isLayer : ∃ entries, tree.layerAt? path.keys = some entries
  around : ∀ layer ∈ path.chain, held layer
  longest : ∀ (other : LeaderPath) (entries : TreeEntries),
    tree.layerAt? other.keys = some entries →
      (∀ layer ∈ other.chain, held layer) → other.depth ≤ path.depth

theorem placeOf?_eq {tree entries : TreeEntries} {path : LeaderPath}
    (found : tree.layerAt? path.keys = some entries) (key : Key) :
    tree.placeOf? path key =
      (entries.lookup key).map fun bound => ⟨path, entries.layerKeys, key, bound⟩ := by
  rw [placeOf?, found, Option.bind_some]

/-- Only the entry on one key counts if all others give nothing. -/
theorem findSome?_filter_eq_bind {α : Type} {entries : TreeEntries} {p : Tree → Bool}
    {f : Key × Tree → Option α} (key : Key) (unique : entries.Unambiguous)
    (others : ∀ entry ∈ entries, p entry.2 = true → entry.1 ≠ key → f entry = none) :
    (entries.filter (p ·.2)).findSome? f =
      ((entries.lookup key).filter p).bind fun bound => f (key, bound) := by
  induction entries with
  | nil => rfl
  | cons entry rest ih =>
      rcases entry with ⟨own, bound⟩
      rw [Unambiguous, List.map_cons, List.nodup_cons] at unique
      have tail := ih unique.2 fun other member => others other (.tail _ member)
      by_cases same : own = key
      · subst same
        have absent : rest.lookup own = none := by
          rw [List.lookup_eq_none_iff]
          intro other member
          have different : other.1 ≠ own := by
            intro again
            have bound : other.1 ∈ rest.map Prod.fst := List.mem_map_of_mem member
            exact unique.1 (again ▸ bound)
          simpa using different.symm
        rw [absent] at tail
        rw [List.lookup_cons_self, List.filter_cons, Option.filter_some]
        split
        · rw [List.findSome?_cons, tail, Option.bind_some]
          cases f (own, bound) <;> rfl
        · rw [tail]
          rfl
      · have skipped : List.lookup key ((own, bound) :: rest) = rest.lookup key := by
          rw [List.lookup_cons, beq_eq_false_iff_ne.2 (Ne.symm same)]
        rw [skipped, ← tail, List.filter_cons]
        split
        · next kept =>
            rw [List.findSome?_cons, others (own, bound) (.head _) kept same]
        · rfl

end TreeEntries

/-! ## Blocked entries -/

/-- Whether the manipulator of a place fits. -/
def CompileOptions.fitsAt (options : CompileOptions) (surroundings : Surroundings)
    (key : Key) (place : TreePlace) : Bool :=
  (options.manipulatorOf place).fits surroundings key

section

variable {options : CompileOptions} {surroundings : Surroundings} {path : LeaderPath}
  {layers : List Key} {key next own : Key} {tree entries inner : TreeEntries}

theorem CompileOptions.fitsAt_of_ne {bound : Tree} (different : own ≠ key) :
    options.fitsAt surroundings key ⟨path, layers, own, bound⟩ = false := by
  rw [← Bool.not_eq_true]
  intro fits
  exact different (key_of_fits fits)

/-- Beside a held layer no other layer is entered. -/
theorem CompileOptions.fitsAt_of_sibling (beside : next ∈ layers) (different : own ≠ next)
    (held : options.Held surroundings.value (path.child next)) :
    options.fitsAt surroundings key ⟨path, layers, own, .layer inner⟩ = false := by
  rw [← Bool.not_eq_true]
  intro fits
  have idle := (activation_fits_iff.1 fits).2.2.1 next beside different.symm
  exact held.not_idle idle

/-- While no layer of the root is held, its conditions decide about its entries. -/
theorem CompileOptions.fitsAt_root {bound : Tree}
    (context : options.InContext surroundings)
    (idle : ∀ other ∈ layers,
      options.Idle surroundings.value (LeaderPath.root.child other)) :
    options.fitsAt surroundings key ⟨.root, layers, key, bound⟩ =
      options.rootConditions.all (·.holds surroundings) := by
  have opens : options.Opens surroundings .root ↔
      options.rootConditions.all (·.holds surroundings) = true := by
    rw [List.all_eq_true]
    exact ⟨fun opens => opens.root rfl, fun conditions => ⟨fun _ => conditions, by simp⟩⟩
  rw [Bool.eq_iff_iff, ← opens]
  cases bound with
  | leaf leaf =>
      refine dispatch_fits_iff.trans ?_
      exact ⟨fun fits => fits.2.1, fun opens => ⟨rfl, opens, fun _ => idle, context⟩⟩
  | layer inner =>
      refine activation_fits_iff.trans ?_
      exact ⟨fun fits => fits.2.1,
        fun opens => ⟨rfl, opens, fun other beside _ => idle other beside, context⟩⟩

namespace TreeEntries

/-- Inside a layer that is not held nothing fits. -/
theorem find?_inside_of_not_held
    (blocked : ¬ options.Held surroundings.value (path.child own)) :
    (inside (path.child own) entries).find? (options.fitsAt surroundings key) = none := by
  rw [List.find?_eq_none]
  intro place within fits
  apply blocked
  apply CompileOptions.held_of_fits fits
  apply LeaderPath.mem_chain_iff.2
  exact ⟨LeaderPath.child_ne_root path own, path_of_mem_inside within⟩

theorem find?_places_of_ne (different : own ≠ key) :
    (Tree.places path layers own (.layer inner)).find? (options.fitsAt surroundings key) =
      (inside (path.child own) inner).find? (options.fitsAt surroundings key) := by
  rw [places_layer, List.find?_cons, CompileOptions.fitsAt_of_ne different]

/-- An entry that leads into no held layer fits itself or not at all. -/
theorem find?_places_of_not_held {bound : Tree}
    (blocked : bound.isLayer = true →
      ¬ options.Held surroundings.value (path.child own)) :
    (bound.places path layers own).find? (options.fitsAt surroundings key) =
      Option.guard (options.fitsAt surroundings key) ⟨path, layers, own, bound⟩ := by
  cases bound with
  | leaf leaf => rw [Tree.places, List.find?_singleton, Option.guard]
  | layer inner =>
      rw [places_layer, List.find?_cons, find?_inside_of_not_held (blocked rfl),
        Option.guard]
      cases options.fitsAt surroundings key ⟨path, layers, own, .layer inner⟩ <;> rfl

theorem find?_places_of_sibling (beside : next ∈ layers) (different : own ≠ next)
    (held : options.Held surroundings.value (path.child next))
    (blocked : ¬ options.Held surroundings.value (path.child own)) :
    (Tree.places path layers own (.layer inner)).find? (options.fitsAt surroundings key) =
      none := by
  rw [find?_places_of_not_held fun _ => blocked, Option.guard,
    CompileOptions.fitsAt_of_sibling beside different held]
  rfl

/-! ## One layer -/

/-- Of the leaves of a layer only the one on the key counts. -/
theorem find?_leaves (unique : entries.Unambiguous) :
    ((entries.filter (!·.2.isLayer)).map fun entry =>
        (⟨path, layers, entry.1, entry.2⟩ : TreePlace)).find?
          (options.fitsAt surroundings key) =
      ((entries.lookup key).filter (!·.isLayer)).bind fun bound =>
        Option.guard (options.fitsAt surroundings key) ⟨path, layers, key, bound⟩ := by
  rw [List.find?_eq_findSome?_guard, List.findSome?_map]
  apply findSome?_filter_eq_bind (p := (!·.isLayer)) key unique
  intro entry member isLeaf different
  rw [Function.comp_apply, Option.guard, CompileOptions.fitsAt_of_ne different]
  rfl

/-- The leaf of an opened layer fits, as all below the root are gated by layers alone. -/
theorem find?_leaves_of_opens (unique : entries.Unambiguous)
    (found : tree.layerAt? path.keys = some entries) (deeper : path ≠ .root)
    (opens : options.Opens surroundings path) (context : options.InContext surroundings) :
    ((entries.filter (!·.2.isLayer)).map fun entry =>
        (⟨path, entries.layerKeys, entry.1, entry.2⟩ : TreePlace)).find?
          (options.fitsAt surroundings key) = tree.leafOf? path key := by
  rw [find?_leaves unique, leafOf?, placeOf?_eq found]
  cases entries.lookup key with
  | none => rfl
  | some bound =>
      cases bound with
      | layer inner => rfl
      | leaf leaf =>
          have fits : options.fitsAt surroundings key
              ⟨path, entries.layerKeys, key, .leaf leaf⟩ = true :=
            CompileOptions.dispatch_fits_iff.2
              ⟨rfl, opens, fun outermost => (deeper outermost).elim, context⟩
          show Option.guard _ _ = _
          rw [Option.guard, fits]
          rfl

/-- Around a held layer only what is inside it and the leaves beside it fit. -/
theorem find?_inside_of_held (unique : entries.Unambiguous)
    (found : tree.layerAt? path.keys = some entries) (deeper : path ≠ .root)
    (opens : options.Opens surroundings path) (context : options.InContext surroundings)
    (bound : entries.lookup next = some (.layer inner)) (different : next ≠ key)
    (held : options.Held surroundings.value (path.child next))
    (alone : ∀ other ∈ entries.layerKeys, other ≠ next →
      ¬ options.Held surroundings.value (path.child other)) :
    (inside path entries).find? (options.fitsAt surroundings key) =
      ((inside (path.child next) inner).find? (options.fitsAt surroundings key)).or
        (tree.leafOf? path key) := by
  have beside : next ∈ entries.layerKeys := mem_layerKeys.2 ⟨inner, mem_of_lookup bound⟩
  rw [inside, List.find?_append, find?_leaves_of_opens unique found deeper opens context,
    nestedPlaces_eq_flatMap, List.find?_flatMap,
    findSome?_filter_eq_bind (p := Tree.isLayer) next unique, bound]
  · show ((Tree.places path entries.layerKeys next (.layer inner)).find? _).or _ = _
    rw [find?_places_of_ne different]
  · rintro ⟨own, leaf | other⟩ member isLayer apart
    · cases isLayer
    · have blocked := alone own (mem_layerKeys.2 ⟨other, member⟩) apart
      exact find?_places_of_sibling beside apart held blocked

/-- Where no layer is held inside an opened layer, its own entry fits. -/
theorem find?_inside_of_innermost (unique : entries.Unambiguous)
    (found : tree.layerAt? path.keys = some entries) (deeper : path ≠ .root)
    (opens : options.Opens surroundings path) (context : options.InContext surroundings)
    (idle : ∀ other ∈ entries.layerKeys,
      options.Idle surroundings.value (path.child other)) :
    (inside path entries).find? (options.fitsAt surroundings key) =
      tree.placeOf? path key := by
  have blocked : ∀ other ∈ entries.layerKeys,
      ¬ options.Held surroundings.value (path.child other) := by
    intro other member held
    exact held.not_idle (idle other member)
  rw [inside, List.find?_append, find?_leaves_of_opens unique found deeper opens context,
    nestedPlaces_eq_flatMap, List.find?_flatMap,
    findSome?_filter_eq_bind (p := Tree.isLayer) key unique, leafOf?,
    placeOf?_eq found]
  · cases hit : entries.lookup key with
    | none => rfl
    | some bound =>
        cases bound with
        | leaf leaf => rfl
        | layer inner =>
            have member : key ∈ entries.layerKeys :=
              mem_layerKeys.2 ⟨inner, mem_of_lookup hit⟩
            have fits : options.fitsAt surroundings key
                ⟨path, entries.layerKeys, key, .layer inner⟩ = true :=
              CompileOptions.activation_fits_iff.2
                ⟨rfl, opens, fun other beside _ => idle other beside, context⟩
            show ((Tree.places path _ key (.layer inner)).find? _).or _ = _
            rw [find?_places_of_not_held fun _ => blocked key member, Option.guard, fits]
            rfl
  · rintro ⟨own, leaf | other⟩ member isLayer apart
    · cases isLayer
    · show (Tree.places path entries.layerKeys own (.layer other)).find? _ = none
      rw [find?_places_of_ne apart]
      exact find?_inside_of_not_held (blocked own (mem_layerKeys.2 ⟨other, member⟩))

/-! ## From a layer to the innermost one -/

/-- Along the held layers each one puts its leaf behind what is found further in. -/
theorem find?_inside_eq {rest : List Key} {target : TreeEntries}
    (distinct : tree.Distinct) (context : options.InContext surroundings)
    (exclusive : tree.Exclusive (options.Held surroundings.value))
    (free : key ∉ rest) (deeper : path ≠ .root)
    (found : tree.layerAt? path.keys = some entries)
    (last : entries.layerAt? rest = some target)
    (around : ∀ layer ∈ path.chain, options.Held surroundings.value layer)
    (held : ∀ layer ∈ path.beyond rest, options.Held surroundings.value layer)
    (idle : ∀ other ∈ target.layerKeys,
      options.Idle surroundings.value (LeaderPath.child ⟨path.keys ++ rest⟩ other)) :
    (inside path entries).find? (options.fitsAt surroundings key) =
      (tree.placeOf? ⟨path.keys ++ rest⟩ key).or
        ((path :: path.beyond rest).dropLast.reverse.findSome? (tree.leafOf? · key)) := by
  have opened : ∀ {layer : LeaderPath}, layer ≠ .root →
      (∀ outer ∈ layer.chain, options.Held surroundings.value outer) →
        options.Opens surroundings layer :=
    fun inside outer => ⟨fun outermost => (inside outermost).elim, outer⟩
  -- along the keys still to come, each layer on the way adding its leaf behind the others
  induction rest generalizing path entries with
  | nil =>
      obtain rfl : entries = target := by simpa using last
      have here : (⟨path.keys ++ []⟩ : LeaderPath) = path := by simp
      rw [here] at idle ⊢
      rw [find?_inside_of_innermost (distinct _ _ found) found deeper
        (opened deeper around) context idle]
      simp [LeaderPath.beyond]
  | cons next rest ih =>
      rcases layerAt?_cons_iff.1 last with ⟨inner, bound, last⟩
      have below : tree.layerAt? (path.child next).keys = some inner :=
        layerAt?_concat.2 ⟨entries, found, bound⟩
      have nextHeld : options.Held surroundings.value (path.child next) :=
        held _ (.head _)
      have beside : next ∈ entries.layerKeys :=
        mem_layerKeys.2 ⟨inner, mem_of_lookup bound⟩
      have alone := exclusive.alone found beside nextHeld
      have keys : (⟨path.keys ++ next :: rest⟩ : LeaderPath) =
          ⟨(path.child next).keys ++ rest⟩ := by
        simp
      have further := ih (fun member => free (.tail _ member))
        (LeaderPath.child_ne_root path next) below last
        (LeaderPath.forall_mem_chain_child.2 ⟨around, nextHeld⟩)
        (fun layer member => held layer (.tail _ member)) (keys ▸ idle)
      rw [find?_inside_of_held (distinct _ _ found) found deeper (opened deeper around)
        context bound (fun same => free (same ▸ .head _)) nextHeld alone, further, keys,
        Option.or_assoc, LeaderPath.beyond,
        List.dropLast_cons_of_ne_nil (List.cons_ne_nil _ _), List.reverse_cons,
        List.findSome?_append]
      simp

/-! ## The root -/

theorem find?_places_eq_bind {fits : TreePlace → Bool} (unique : tree.Unambiguous)
    (others : ∀ own bound, (own, bound) ∈ tree → own ≠ key →
      (Tree.places .root tree.layerKeys own bound).find? fits = none) :
    tree.places.find? fits = (tree.lookup key).bind fun bound =>
      (bound.places .root tree.layerKeys key).find? fits := by
  have only := findSome?_filter_eq_bind (p := fun _ => true)
    (f := fun entry => (entry.2.places .root tree.layerKeys entry.1).find? fits) key unique
    (fun entry member _ different => others entry.1 entry.2 member different)
  rw [List.filter_true] at only
  rw [places, List.find?_flatMap, only]
  cases tree.lookup key <;> rfl

/-- Beside a held layer of the root only what is inside that layer fits. -/
theorem find?_places_of_held (unique : tree.Unambiguous)
    (bound : tree.lookup next = some (.layer inner)) (different : next ≠ key)
    (held : options.Held surroundings.value (LeaderPath.root.child next))
    (alone : ∀ other ∈ tree.layerKeys, other ≠ next →
      ¬ options.Held surroundings.value (LeaderPath.root.child other)) :
    tree.places.find? (options.fitsAt surroundings key) =
      (inside (LeaderPath.root.child next) inner).find?
        (options.fitsAt surroundings key) := by
  have beside : next ∈ tree.layerKeys := mem_layerKeys.2 ⟨inner, mem_of_lookup bound⟩
  rw [find?_places_eq_bind unique ?others, bound, Option.bind_some,
    find?_places_of_ne different]
  intro own entry member apart
  cases entry with
  | leaf leaf =>
      have blocked : options.fitsAt surroundings key
          ⟨.root, tree.layerKeys, own, .leaf leaf⟩ = false := by
        rw [← Bool.not_eq_true]
        intro fits
        have idle := (CompileOptions.dispatch_fits_iff.1 fits).2.2.1 rfl next beside
        exact held.not_idle idle
      rw [Tree.places, List.find?_singleton, blocked]
      rfl
  | layer other =>
      have blocked := alone own (mem_layerKeys.2 ⟨other, member⟩) apart
      exact find?_places_of_sibling beside apart held blocked

/-- While no layer of the root is held its own entries fit, if its conditions hold. -/
theorem find?_places_of_innermost (unique : tree.Unambiguous)
    (context : options.InContext surroundings)
    (idle : ∀ other ∈ tree.layerKeys,
      options.Idle surroundings.value (LeaderPath.root.child other)) :
    tree.places.find? (options.fitsAt surroundings key) =
      if options.rootConditions.all (·.holds surroundings) then
        tree.placeOf? .root key
      else none := by
  have entered : ∀ {own : Key} {bound : Tree}, (own, bound) ∈ tree →
      bound.isLayer = true →
        ¬ options.Held surroundings.value (LeaderPath.root.child own) := by
    rintro own (leaf | inner) member isLayer held
    · cases isLayer
    · exact held.not_idle (idle own (mem_layerKeys.2 ⟨inner, member⟩))
  have here : tree.placeOf? .root key = _ := placeOf?_eq rfl key
  rw [find?_places_eq_bind unique ?others, here]
  · cases hit : tree.lookup key with
    | none => simp
    | some bound =>
        rw [Option.bind_some, find?_places_of_not_held (entered (mem_of_lookup hit)),
          Option.guard, CompileOptions.fitsAt_root context idle]
        rfl
  · intro own bound member apart
    rw [find?_places_of_not_held (entered member), Option.guard,
      CompileOptions.fitsAt_of_ne apart]
    rfl

end TreeEntries

end

namespace TreeEntries

/-- With held layers, the search ends at the innermost one or comes back out. -/
theorem find?_places_eq {options : CompileOptions} {surroundings : Surroundings}
    {tree target : TreeEntries} {first key : Key} {rest : List Key}
    (distinct : tree.Distinct) (context : options.InContext surroundings)
    (exclusive : tree.Exclusive (options.Held surroundings.value))
    (free : key ∉ first :: rest) (last : tree.layerAt? (first :: rest) = some target)
    (around : ∀ layer ∈ LeaderPath.chain ⟨first :: rest⟩,
      options.Held surroundings.value layer)
    (idle : ∀ other ∈ target.layerKeys,
      options.Idle surroundings.value (LeaderPath.child ⟨first :: rest⟩ other)) :
    tree.places.find? (options.fitsAt surroundings key) =
      tree.mostSpecific? ⟨first :: rest⟩ key := by
  have chain : LeaderPath.chain ⟨first :: rest⟩ =
      LeaderPath.root.child first :: (LeaderPath.root.child first).beyond rest :=
    LeaderPath.chain_eq_beyond _
  rw [chain] at around
  rcases layerAt?_cons_iff.1 last with ⟨inner, bound, last⟩
  have firstHeld : options.Held surroundings.value (LeaderPath.root.child first) :=
    around _ (.head _)
  have beside : first ∈ tree.layerKeys :=
    mem_layerKeys.2 ⟨inner, mem_of_lookup bound⟩
  have alone : ∀ other ∈ tree.layerKeys, other ≠ first →
      ¬ options.Held surroundings.value (LeaderPath.root.child other) :=
    exclusive.alone rfl beside firstHeld
  have below : tree.layerAt? (LeaderPath.root.child first).keys = some inner :=
    layerAt?_cons bound []
  have firstChain := LeaderPath.forall_mem_chain_child.2 ⟨by simp, firstHeld⟩
  rw [find?_places_of_held distinct.unambiguous bound
      (fun same => free (same ▸ .head _)) firstHeld alone,
    find?_inside_eq distinct context exclusive (fun member => free (.tail _ member))
      (LeaderPath.child_ne_root _ _) below last firstChain
      (fun layer member => around layer (.tail _ member)) idle,
    mostSpecific?, chain]
  rfl

/-! ## The innermost layer -/

theorem length_of_layerAt? {tree entries : TreeEntries} {keys : List Key}
    (found : tree.layerAt? keys = some entries) : keys.length ≤ sizeOf tree := by
  induction keys generalizing tree with
  | nil => exact Nat.zero_le _
  | cons key rest ih =>
      rcases layerAt?_cons_iff.1 found with ⟨inner, bound, found⟩
      calc rest.length + 1
          ≤ sizeOf inner + 1 := Nat.succ_le_succ (ih found)
        _ ≤ sizeOf tree := sizeOf_lt_of_mem (mem_of_lookup bound)

/-- How deep the layers are that are held together with all layers around them. -/
def heldDepths (tree : TreeEntries) (held : LeaderPath → Prop) : Set Nat := fun depth =>
  ∃ (path : LeaderPath) (entries : TreeEntries),
    tree.layerAt? path.keys = some entries ∧ (∀ layer ∈ path.chain, held layer) ∧
      path.depth = depth

/-- Whatever is held, some layer is the innermost one, if only the root. -/
theorem exists_innermost (tree : TreeEntries) (held : LeaderPath → Prop) :
    ∃ path, tree.Innermost held path := by
  have root : 0 ∈ tree.heldDepths held := ⟨.root, tree, rfl, by simp, rfl⟩
  have bounded : BddAbove (tree.heldDepths held) := by
    refine ⟨sizeOf tree, ?_⟩
    rintro depth ⟨path, entries, found, -, rfl⟩
    exact length_of_layerAt? found
  rcases Nat.sSup_mem ⟨0, root⟩ bounded with ⟨path, entries, found, around, depth⟩
  refine ⟨path, ⟨entries, found⟩, around, ?_⟩
  intro other otherEntries otherFound otherAround
  rw [depth]
  exact le_csSup bounded ⟨other, otherEntries, otherFound, otherAround, rfl⟩

/-- Inside the innermost layer no other one is held. -/
theorem Innermost.not_held {tree entries : TreeEntries} {held : LeaderPath → Prop}
    {path : LeaderPath} (innermost : tree.Innermost held path)
    (found : tree.layerAt? path.keys = some entries) {key : Key}
    (member : key ∈ entries.layerKeys) (unique : entries.Unambiguous) :
    ¬ held (path.child key) := by
  intro inside
  rcases mem_layerKeys.1 member with ⟨inner, bound⟩
  have below : tree.layerAt? (path.child key).keys = some inner :=
    layerAt?_concat.2 ⟨entries, found, (lookup_eq_some_iff unique).2 bound⟩
  have deeper := innermost.longest _ inner below
    (LeaderPath.forall_mem_chain_child.2 ⟨innermost.around, inside⟩)
  rw [LeaderPath.depth, LeaderPath.keys_child, List.length_append] at deeper
  exact Nat.not_succ_le_self _ deeper

end TreeEntries

/--
The first manipulator that fits is the most specific one.  In the root it is
that of the root's own entry, under the conditions of the root.  In a layer it is
that of the layer's own entry, or else that of the leaf furthest in among the
layers around it.
-/
theorem firstFit_eq_mostSpecific {spec : LayerSpec} {options : CompileOptions}
    {compilation : Compilation} {tree : TreeEntries} {surroundings : Surroundings}
    {path : LeaderPath} {key : Key} (label : String)
    (compiled : spec.compile options = .ok compilation)
    (expanded : spec.expand = .ok tree)
    (binary : ∀ entry ∈ compilation.states,
      surroundings.value entry.2.name = 0 ∨ surroundings.value entry.2.name = 1)
    (exclusive : tree.Exclusive (options.Held surroundings.value))
    (context : options.InContext surroundings)
    (innermost : tree.Innermost (options.Held surroundings.value) path)
    (free : key ∉ path.keys) :
    (path = .root →
      firstFit (compilation.rules label) surroundings key =
        if options.rootConditions.all (·.holds surroundings) then
          (tree.placeOf? .root key).map options.manipulatorOf
        else none) ∧
    (path ≠ .root →
      firstFit (compilation.rules label) surroundings key =
        (tree.mostSpecific? path key).map options.manipulatorOf) := by
  have distinct : tree.Distinct := LayerSpec.distinct_of_expand expanded
  obtain rfl : compilation = options.compileTree tree :=
    LayerSpec.compilation_eq compiled expanded
  have places : firstFit ((options.compileTree tree).rules label) surroundings key =
      (tree.places.find? (options.fitsAt surroundings key)).map options.manipulatorOf := by
    rw [firstFit, Compilation.rules, CompileOptions.manipulators_compileTree,
      List.find?_map]
    rfl
  rcases innermost.isLayer with ⟨target, last⟩
  have idle : ∀ other ∈ target.layerKeys,
      options.Idle surroundings.value (path.child other) := by
    intro other member
    have entry := (options.mem_states_iff distinct).2
      ⟨path, target, other, last, member, rfl⟩
    rcases binary _ entry with zero | one
    · exact zero
    · exact (innermost.not_held last member (distinct _ _ last) one).elim
  rw [places]
  rcases path with ⟨_ | ⟨first, rest⟩⟩
  · constructor
    · intro outermost
      cases last
      rw [TreeEntries.find?_places_of_innermost distinct.unambiguous context idle]
      split <;> rfl
    · intro inside
      exact (inside rfl).elim
  · constructor
    · intro outermost
      cases outermost
    · intro inside
      congr 1
      exact TreeEntries.find?_places_eq distinct context exclusive free last
        innermost.around idle

namespace Sample

/-- The outer layer and the one inside it are held, and the one beside them is not. -/
def bothHeld : Surroundings where
  value name := if name = "hyper_sublayer_a" ∨ name = "hyper_sublayer_a__b" then 1 else 0
  frontmost _ := false

/-- In the inner layer a leaf of the outer one is still reached. -/
theorem firstFit_lock_of_bothHeld :
    firstFit ((CompileOptions.compileTree {} tree).rules "Hyper") bothHeld lock =
      some (CompileOptions.dispatch {} ⟨[outer]⟩ [inner] lock leaf) := by
  have single : tree.Exclusive (CompileOptions.Held {} bothHeld.value) := by
    have sideIdle : ¬ CompileOptions.Held {} bothHeld.value ⟨[side]⟩ := by decide
    intro parent entries found first firstMember second secondMember firstHeld secondHeld
    rcases layers_of_layerAt? found with
      ⟨isRoot, rfl⟩ | ⟨-, rfl⟩ | ⟨-, rfl⟩ | ⟨-, rfl⟩
    · obtain rfl : parent = .root := LeaderPath.ext isRoot
      rcases List.mem_pair.1 firstMember with rfl | rfl
      · rcases List.mem_pair.1 secondMember with rfl | rfl
        · rfl
        · exact (sideIdle secondHeld).elim
      · exact (sideIdle firstHeld).elim
    · rw [List.mem_singleton.1 firstMember, List.mem_singleton.1 secondMember]
    · cases firstMember
    · cases firstMember
  have innermost : tree.Innermost (CompileOptions.Held {} bothHeld.value)
      ⟨[outer, inner]⟩ := by
    refine ⟨⟨innerTree, rfl⟩, ?_, ?_⟩
    · intro layer around
      rcases List.mem_pair.1 around with rfl | rfl
      · rfl
      · rfl
    · rintro other entries found -
      rcases layers_of_layerAt? found with
        ⟨keys, -⟩ | ⟨keys, -⟩ | ⟨keys, -⟩ | ⟨keys, -⟩
      · simp [LeaderPath.depth, keys]
      · simp [LeaderPath.depth, keys]
      · simp [LeaderPath.depth, keys]
      · simp [LeaderPath.depth, keys]
  have binary : ∀ entry ∈ (CompileOptions.compileTree {} tree).states,
      bothHeld.value entry.2.name = 0 ∨ bothHeld.value entry.2.name = 1 := by
    intro entry member
    simp only [bothHeld]
    split
    · exact Or.inr rfl
    · exact Or.inl rfl
  have context : CompileOptions.InContext {} bothHeld := by
    intro condition member
    cases member
  have free : lock ∉ [outer, inner] := by decide
  have below := firstFit_eq_mostSpecific "Hyper" compile_spec expand_spec binary single
    context innermost free
  rw [below.2 (by decide)]
  rfl

end Sample

end KeyLayers
