import KeyLayers.Proofs.Layer.Expansion

/-!
# One table of claims for the whole tree

`LayerSpec.expand` looks at the claims of one mapping at a time.  Here one
allocator is handed through the whole expansion instead, and every key of every
mapping is claimed in it and never given back.  The outcome is the same, errors
included (`LayerSpec.compileShared_eq`): a mapping claims keys only under its own
path, and no path is met twice.
-/

namespace KeyLayers

/-! ## Expanding with an allocator -/

namespace LayerSpec

/-- The keys of a mapping, each one claimed in the allocator. -/
def claimKeys (definitions : Members LayerMapping) (path : LeaderPath)
    (allocator : Allocator) : LayerMapping → Except CompileError (List Key × Allocator)
  | [] => .ok ([], allocator)
  | (spelling, node) :: rest => do
      let key ← (Key.parse spelling).mapError fun error => .unknownKey error.name path
      let claimed ← allocator.claim path key spelling
      checkReference definitions (path.child key) node
      let (keys, after) ← claimKeys definitions path claimed rest
      return (key :: keys, after)

mutual

/-- Expands the node of an entry. -/
def claimNode (definitions : Members LayerMapping) (expanding : List String)
    (path : LeaderPath) (node : LayerNode) (allocator : Allocator) :
    Except CompileError (Tree × Allocator) :=
  match node with
  | .action action => .ok (.leaf ⟨some action.describe, action.encode⟩, allocator)
  | .raw binding => .ok (.leaf ⟨binding.description, binding.events⟩, allocator)
  | .layer entries =>
      (claimLayer definitions expanding path entries allocator).map (Prod.map .layer id)
  | .reference name =>
      if known : name ∈ expanding then
        .error (.cyclicReference (expanding.dropWhile (· != name) ++ [name]))
      else
        match found : definitions.get? name with
        | none => .error (.unknownReference name path)
        | some body =>
            have := remaining_lt (mem_names_of_get? found) known
            (claimLayer definitions (expanding ++ [name]) path body allocator).map
              (Prod.map .layer id)
termination_by (remaining definitions expanding, sizeOf node, 0)

/-- Expands a layer. -/
def claimLayer (definitions : Members LayerMapping) (expanding : List String)
    (path : LeaderPath) (entries : LayerMapping) (allocator : Allocator) :
    Except CompileError (TreeEntries × Allocator) :=
  if entries.isEmpty then .error (.emptyLayer path)
  else
    match claimKeys definitions path allocator entries with
    | .error error => .error error
    | .ok (keys, claimed) =>
        match claimEntries definitions expanding path keys entries claimed with
        | .error error => .error error
        | .ok (trees, after) =>
            match checkLeaves path entries with
            | .error error => .error error
            | .ok () => .ok (trees, after)
termination_by (remaining definitions expanding, sizeOf entries, 1)

/-- Expands the entries of a layer, whose keys have been claimed. -/
def claimEntries (definitions : Members LayerMapping) (expanding : List String)
    (path : LeaderPath) (keys : List Key) (entries : LayerMapping) (allocator : Allocator) :
    Except CompileError (TreeEntries × Allocator) :=
  match keys, entries with
  | key :: keys, (_, node) :: rest =>
      match claimNode definitions expanding (path.child key) node allocator with
      | .error error => .error error
      | .ok (tree, claimed) =>
          match claimEntries definitions expanding path keys rest claimed with
          | .error error => .error error
          | .ok (trees, after) => .ok ((key, tree) :: trees, after)
  | _, _ => .ok ([], allocator)
termination_by (remaining definitions expanding, sizeOf entries, 0)

end

/-- Expands the entries of the root in order. -/
def claimRoot (definitions : Members LayerMapping) :
    List Key → LayerMapping → Allocator → Except CompileError (TreeEntries × Allocator)
  | key :: keys, (spelling, node) :: rest, allocator => do
      checkLeaf .root spelling node
      let (tree, claimed) ←
        claimNode definitions [] (LeaderPath.root.child key) node allocator
      let (trees, after) ← claimRoot definitions keys rest claimed
      return ((key, tree) :: trees, after)
  | _, _, allocator => .ok ([], allocator)

/-- The tree of a specification, and the allocator with all claims. -/
def expandShared (spec : LayerSpec) (allocator : Allocator) :
    Except CompileError (TreeEntries × Allocator) := do
  let (keys, claimed) ← claimKeys spec.definitions .root allocator spec.root
  claimRoot spec.definitions keys spec.root claimed

/-- Compiles a specification with one allocator. -/
def compileShared (spec : LayerSpec) (options : CompileOptions) :
    Except CompileError Compilation := do
  options.check
  let allocator ← (Allocator.new options.base).mapError .invalidOptions
  let (tree, _) ← spec.expandShared allocator
  return options.compileTree tree

end LayerSpec

/-! ## Claims under one path -/

namespace Allocator

/-- A claim fails or succeeds by the claims under its own path, and changes only those. -/
theorem claim_cases (allocator : Allocator) (path : LeaderPath) (key : Key)
    (spelling : String) :
    (∃ first, (allocator.claimsAt path).add key spelling = .error first ∧
      allocator.claim path key spelling = .error (.duplicateKey spelling first path)) ∨
    ∃ claims next, (allocator.claimsAt path).add key spelling = .ok claims ∧
      allocator.claim path key spelling = .ok next ∧ next.claimsAt path = claims ∧
        ∀ other, other ≠ path → next.claimsAt other = allocator.claimsAt other := by
  cases added : (allocator.claimsAt path).add key spelling with
  | error first =>
      refine Or.inl ⟨first, rfl, ?_⟩
      rw [claim, added]
  | ok claims =>
      refine Or.inr ⟨claims, _, rfl, by rw [claim, added], ?_, ?_⟩
      · rw [claimsAt, List.lookup_cons_self]
        rfl
      · intro other different
        rw [claimsAt, List.lookup_cons, beq_eq_false_iff_ne.2 different]
        rfl

/-- Whether an allocator has no claims at a path or beyond it. -/
def Free (allocator : Allocator) (path : LeaderPath) : Prop :=
  ∀ other : LeaderPath, path.keys <+: other.keys → allocator.claimsAt other = []

/-- Claims inside one layer leave the layers beside it free. -/
theorem free_of_kept {allocator claimed : Allocator} {path : LeaderPath} {key : Key}
    {keys : List Key} (fresh : key ∉ keys)
    (free : ∀ other ∈ key :: keys, allocator.Free (path.child other))
    (kept : ∀ other : LeaderPath, ¬ (path.child key).keys <+: other.keys →
      claimed.claimsAt other = allocator.claimsAt other) :
    ∀ other ∈ keys, claimed.Free (path.child other) := by
  intro other member deeper isPrefix
  rw [kept deeper]
  · exact free other (.tail _ member) deeper isPrefix
  · intro also
    have same := LeaderPath.key_of_child_prefix also isPrefix
    exact fresh (same ▸ member)

end Allocator

/--
Whether an outcome with an allocator is the one without it, while claims change
nowhere but within some paths.
-/
structure Mirrors {α : Type} (shared : Except CompileError (α × Allocator))
    (alone : Except CompileError α) (before : Allocator) (within : LeaderPath → Prop) :
    Prop where
  same : shared.map Prod.fst = alone
  frame : ∀ result after, shared = .ok (result, after) →
    ∀ path, ¬ within path → after.claimsAt path = before.claimsAt path

namespace Mirrors

variable {α β : Type} {shared : Except CompileError (α × Allocator)}
  {alone : Except CompileError α} {before : Allocator} {within wider : LeaderPath → Prop}

theorem error (failure : CompileError) :
    Mirrors (α := α) (.error failure) (.error failure) before within := by
  refine ⟨rfl, ?_⟩
  intro result after impossible
  cases impossible

theorem ok (result : α) : Mirrors (.ok (result, before)) (.ok result) before within := by
  refine ⟨rfl, ?_⟩
  intro other after same path outside
  cases same
  rfl

theorem map (mirrors : Mirrors shared alone before within) (f : α → β) :
    Mirrors (shared.map (Prod.map f id)) (alone.map f) before within := by
  rcases shared with failure | ⟨result, after⟩
  · rw [← mirrors.same]
    exact .error failure
  · rw [← mirrors.same]
    refine ⟨rfl, ?_⟩
    intro other final same
    cases same
    exact mirrors.frame result after rfl

theorem outcome (mirrors : Mirrors shared alone before within) :
    (∃ failure, shared = .error failure ∧ alone = .error failure) ∨
      ∃ result after, shared = .ok (result, after) ∧ alone = .ok result ∧
        ∀ path, ¬ within path → after.claimsAt path = before.claimsAt path := by
  rcases shared with failure | ⟨result, after⟩
  · exact Or.inl ⟨failure, rfl, mirrors.same.symm⟩
  · exact Or.inr ⟨result, after, rfl, mirrors.same.symm, mirrors.frame result after rfl⟩

theorem mono (mirrors : Mirrors shared alone before within)
    (included : ∀ path, within path → wider path) :
    Mirrors shared alone before wider := by
  refine ⟨mirrors.same, ?_⟩
  intro result after done path outside
  exact mirrors.frame result after done path fun inside => outside (included path inside)

theorem from_earlier {middle : Allocator} (mirrors : Mirrors shared alone middle within)
    (kept : ∀ path, ¬ within path → middle.claimsAt path = before.claimsAt path) :
    Mirrors shared alone before within := by
  refine ⟨mirrors.same, ?_⟩
  intro result after done path outside
  exact (mirrors.frame result after done path outside).trans (kept path outside)

/-- What comes after a mirrored step mirrors, too, if it does from where the step ends. -/
theorem bind {next : α × Allocator → Except CompileError (β × Allocator)}
    {nextAlone : α → Except CompileError β} (mirrors : Mirrors shared alone before within)
    (further : ∀ result after, shared = .ok (result, after) → alone = .ok result →
      Mirrors (next (result, after)) (nextAlone result) after within) :
    Mirrors (shared >>= next) (alone >>= nextAlone) before within := by
  rcases shared with failure | ⟨result, middle⟩
  · rw [← mirrors.same]
    exact .error failure
  · rw [← mirrors.same]
    exact (further result middle rfl mirrors.same.symm).from_earlier
      (mirrors.frame result middle rfl)

end Mirrors

namespace LayerSpec

variable {definitions : Members LayerMapping}

theorem mirrors_claimKeys (path : LeaderPath) (entries : LayerMapping)
    (allocator : Allocator) :
    Mirrors (claimKeys definitions path allocator entries)
      (resolveKeys definitions path (allocator.claimsAt path) entries) allocator
      (· = path) := by
  induction entries generalizing allocator with
  | nil => exact .ok []
  | cons entry rest ih =>
      rcases entry with ⟨spelling, node⟩
      rw [claimKeys, resolveKeys]
      cases Key.parse spelling with
      | error failure => exact .error _
      | ok key =>
          rcases allocator.claim_cases path key spelling with
            ⟨first, taken, failed⟩ | ⟨claims, next, added, claimed, here, kept⟩
          · simp only [Except.mapError, bind, Except.bind, taken, failed]
            exact .error _
          · simp only [Except.mapError, bind, Except.bind, added, claimed]
            cases checkReference definitions (path.child key) node with
            | error failure => exact .error _
            | ok checked =>
                have tail := ih next
                rw [here] at tail
                apply Mirrors.from_earlier _ kept
                apply tail.bind
                intro keys after _ _
                exact .ok (key :: keys)

theorem claimNode_reference (definitions : Members LayerMapping) (expanding : List String)
    (path : LeaderPath) (name : String) (allocator : Allocator) :
    claimNode definitions expanding path (.reference name) allocator =
      if name ∈ expanding then
        .error (.cyclicReference (expanding.dropWhile (· != name) ++ [name]))
      else
        match definitions.get? name with
        | none => .error (.unknownReference name path)
        | some body =>
            (claimLayer definitions (expanding ++ [name]) path body allocator).map
              (Prod.map .layer id) := by
  rw [claimNode]
  split
  · rfl
  · split
    · next missing => simp only [missing]
    · next body found => simp only [found]

/-- A layer mirrors if its entries do once its keys have been claimed. -/
theorem mirrors_claimLayer {expanding : List String} {path : LeaderPath}
    {entries : LayerMapping} {allocator : Allocator} (free : allocator.Free path)
    (inner : ∀ keys claimed, resolveKeys definitions path [] entries = .ok keys →
      (∀ key ∈ keys, claimed.Free (path.child key)) →
        Mirrors (claimEntries definitions expanding path keys entries claimed)
          (expandEntries definitions expanding path keys entries) claimed
          (path.keys <+: ·.keys)) :
    Mirrors (claimLayer definitions expanding path entries allocator)
      (expandLayer definitions expanding path entries) allocator (path.keys <+: ·.keys) := by
  rw [claimLayer, expandLayer]
  split
  · exact .error _
  · have resolved : Mirrors (claimKeys definitions path allocator entries)
        (resolveKeys definitions path [] entries) allocator (· = path) := by
      rw [← free path List.prefix_rfl]
      exact mirrors_claimKeys path entries allocator
    rcases resolved.outcome with
      ⟨failure, shared, alone⟩ | ⟨keys, claimed, shared, alone, kept⟩
    · simp only [shared, alone]
      exact .error _
    · -- the claims stand at the path itself, so everything beyond it is still free
      have below : ∀ key ∈ keys, claimed.Free (path.child key) := by
        intro key _ other isPrefix
        rw [kept other (LeaderPath.ne_of_child_prefix isPrefix)]
        exact free other ((List.prefix_append path.keys [key]).trans isPrefix)
      rcases (inner keys claimed alone below).outcome with
        ⟨failure, sharedTrees, aloneTrees⟩ | ⟨trees, after, sharedTrees, aloneTrees, untouched⟩
      · simp only [shared, alone, sharedTrees, aloneTrees]
        exact .error _
      · simp only [shared, alone, sharedTrees, aloneTrees]
        cases checkLeaves path entries with
        | error failure => exact .error _
        | ok checked =>
            apply (Mirrors.ok trees).from_earlier
            intro other outside
            rw [untouched other outside]
            apply kept
            rintro rfl
            exact outside List.prefix_rfl

/-- Entries mirror one after the other, as none has a path that another one has. -/
theorem mirrors_claimEntries_cons {expanding : List String} {path : LeaderPath} {key : Key}
    {keys : List Key} {spelling : String} {node : LayerNode} {rest : LayerMapping}
    {allocator : Allocator} (fresh : key ∉ keys)
    (free : ∀ other ∈ key :: keys, allocator.Free (path.child other))
    (first : allocator.Free (path.child key) →
      Mirrors (claimNode definitions expanding (path.child key) node allocator)
        (expandNode definitions expanding (path.child key) node) allocator
        ((path.child key).keys <+: ·.keys))
    (further : ∀ tree claimed, expandNode definitions expanding (path.child key) node =
        .ok tree → (∀ other ∈ keys, claimed.Free (path.child other)) →
      Mirrors (claimEntries definitions expanding path keys rest claimed)
        (expandEntries definitions expanding path keys rest) claimed
        (path.keys <+: ·.keys)) :
    Mirrors
      (claimEntries definitions expanding path (key :: keys) ((spelling, node) :: rest)
        allocator)
      (expandEntries definitions expanding path (key :: keys) ((spelling, node) :: rest))
      allocator (path.keys <+: ·.keys) := by
  rw [claimEntries, expandEntries]
  rcases (first (free key (.head _))).outcome with
    ⟨failure, shared, alone⟩ | ⟨tree, claimed, shared, alone, kept⟩
  · simp only [shared, alone]
    exact .error _
  · have later := Allocator.free_of_kept fresh free kept
    rcases (further tree claimed alone later).outcome with
      ⟨failure, sharedTrees, aloneTrees⟩ | ⟨trees, after, sharedTrees, aloneTrees, untouched⟩
    · simp only [shared, alone, sharedTrees, aloneTrees]
      exact .error _
    · simp only [shared, alone, sharedTrees, aloneTrees]
      apply (Mirrors.ok ((key, tree) :: trees)).from_earlier
      intro other outside
      rw [untouched other outside]
      apply kept
      intro inside
      exact outside ((List.prefix_append path.keys [key]).trans inside)

/-- Where nothing has been claimed yet, a shared allocator makes no difference. -/
theorem mirrors_claimNode (definitions : Members LayerMapping) :
    (∀ expanding path node (allocator : Allocator), allocator.Free path →
      Mirrors (claimNode definitions expanding path node allocator)
        (expandNode definitions expanding path node) allocator (path.keys <+: ·.keys)) ∧
    (∀ expanding path entries (allocator : Allocator), allocator.Free path →
      Mirrors (claimLayer definitions expanding path entries allocator)
        (expandLayer definitions expanding path entries) allocator
        (path.keys <+: ·.keys)) ∧
    (∀ expanding path keys entries (allocator : Allocator), keys.Nodup →
      (∀ key ∈ keys, allocator.Free (path.child key)) →
        Mirrors (claimEntries definitions expanding path keys entries allocator)
          (expandEntries definitions expanding path keys entries) allocator
          (path.keys <+: ·.keys)) := by
  refine expandNode.mutual_induct definitions
    (fun expanding path node => ∀ allocator : Allocator, _)
    (fun expanding path entries => ∀ allocator : Allocator, _)
    (fun expanding path keys entries => ∀ allocator : Allocator, _)
    ?action ?raw ?layer ?cycle ?unknown ?body ?empty ?badKeys ?badEntry ?badLeaf ?sound
    ?badFirst ?badRest ?both ?done
  case action =>
    intro expanding path action allocator free
    rw [claimNode, expandNode]
    exact .ok _
  case raw =>
    intro expanding path binding allocator free
    rw [claimNode, expandNode]
    exact .ok _
  case layer =>
    intro expanding path entries ih allocator free
    rw [claimNode, expandNode]
    exact (ih allocator free).map Tree.layer
  case cycle =>
    intro expanding path name again allocator free
    rw [claimNode_reference, expandNode_reference, if_pos again, if_pos again]
    exact .error _
  case unknown =>
    intro expanding path name fresh missing allocator free
    simp only [claimNode_reference, expandNode_reference, if_neg fresh, missing]
    exact .error _
  case body =>
    intro expanding path name fresh body found fewer ih allocator free
    simp only [claimNode_reference, expandNode_reference, if_neg fresh, found]
    exact (ih allocator free).map Tree.layer
  case empty =>
    intro expanding path entries none allocator free
    rw [claimLayer, expandLayer, if_pos none, if_pos none]
    exact .error _
  case badKeys =>
    intro expanding path entries some failure resolved allocator free
    apply mirrors_claimLayer free
    intro keys claimed again
    cases resolved.symm.trans again
  case badEntry =>
    intro expanding path entries some keys resolved failure expanded ih allocator free
    apply mirrors_claimLayer free
    intro others claimed again below
    cases resolved.symm.trans again
    exact ih claimed (keys_of_resolveKeys resolved).2.1 below
  case badLeaf =>
    intro expanding path entries some keys resolved trees expanded failure checked ih
      allocator free
    apply mirrors_claimLayer free
    intro others claimed again below
    cases resolved.symm.trans again
    exact ih claimed (keys_of_resolveKeys resolved).2.1 below
  case sound =>
    intro expanding path entries some keys resolved trees expanded checked ih allocator free
    apply mirrors_claimLayer free
    intro others claimed again below
    cases resolved.symm.trans again
    exact ih claimed (keys_of_resolveKeys resolved).2.1 below
  case badFirst =>
    intro expanding path key keys spelling node rest failure first ih allocator distinct free
    apply mirrors_claimEntries_cons (List.nodup_cons.1 distinct).1 free (ih allocator)
    intro tree claimed again
    cases first.symm.trans again
  case badRest =>
    intro expanding path key keys spelling node rest tree first failure others ih restIh
      allocator distinct free
    apply mirrors_claimEntries_cons (List.nodup_cons.1 distinct).1 free (ih allocator)
    intro other claimed again
    exact restIh claimed (List.nodup_cons.1 distinct).2
  case both =>
    intro expanding path key keys spelling node rest tree first trees others ih restIh
      allocator distinct free
    apply mirrors_claimEntries_cons (List.nodup_cons.1 distinct).1 free (ih allocator)
    intro other claimed again
    exact restIh claimed (List.nodup_cons.1 distinct).2
  case done =>
    intro expanding path keys entries ended allocator distinct free
    rw [claimEntries, expandEntries]
    · exact .ok []
    · exact ended
    · exact ended

theorem mirrors_claimRoot {keys : List Key} {entries : LayerMapping} {allocator : Allocator}
    (distinct : keys.Nodup)
    (free : ∀ key ∈ keys, allocator.Free (LeaderPath.root.child key)) :
    Mirrors (claimRoot definitions keys entries allocator)
      (expandRoot definitions keys entries) allocator fun _ => True := by
  induction entries generalizing keys allocator with
  | nil => cases keys <;> exact .ok []
  | cons entry rest ih =>
      rcases entry with ⟨spelling, node⟩
      cases keys with
      | nil => exact .ok []
      | cons key keys =>
          rcases List.nodup_cons.1 distinct with ⟨fresh, distinctRest⟩
          rw [claimRoot, expandRoot]
          cases checkLeaf .root spelling node with
          | error failure => exact .error _
          | ok checked =>
              have first := (mirrors_claimNode definitions).1 [] (LeaderPath.root.child key)
                node allocator (free key (.head _))
              apply (first.mono fun _ _ => trivial).bind
              intro tree claimed done _
              have later := Allocator.free_of_kept fresh free (first.frame tree claimed done)
              apply (ih distinctRest later).bind
              intro trees after _ _
              exact .ok ((key, tree) :: trees)

theorem mirrors_expand (spec : LayerSpec) {allocator : Allocator}
    (free : allocator.Free .root) :
    Mirrors (spec.expandShared allocator) spec.expand allocator fun _ => True := by
  have resolved : Mirrors (claimKeys spec.definitions .root allocator spec.root)
      (resolveKeys spec.definitions .root [] spec.root) allocator (· = .root) := by
    rw [← free .root List.prefix_rfl]
    exact mirrors_claimKeys .root spec.root allocator
  apply (resolved.mono fun _ _ => trivial).bind
  intro keys claimed done alone
  apply mirrors_claimRoot (keys_of_resolveKeys alone).2.1
  intro key _ other isPrefix
  rw [resolved.frame keys claimed done other (LeaderPath.ne_of_child_prefix isPrefix)]
  exact free other List.nil_prefix

/-- Claiming all keys in one allocator changes neither the outcome nor any error. -/
theorem compileShared_eq (spec : LayerSpec) (options : CompileOptions) :
    spec.compileShared options = spec.compile options := by
  cases checked : options.check with
  | error failure => simp only [compileShared, compile, checked, bind, Except.bind]
  | ok valid =>
      have base : checkVariableName options.base = .ok () := by
        simp only [CompileOptions.check, mapError_eq_ok_iff, bind_eq_ok_iff] at checked
        rcases checked with ⟨⟨⟩, base, -⟩
        exact base
      have new : Allocator.new options.base = .ok { base := options.base } := by
        rw [Allocator.new, base]
        rfl
      have free : Allocator.Free { base := options.base } .root := fun _ _ => rfl
      rcases (mirrors_expand spec free).outcome with
        ⟨failure, shared, alone⟩ | ⟨tree, claimed, shared, alone, -⟩
      · simp only [compileShared, compile, checked, new, shared, alone, bind, Except.bind,
          Except.mapError]
      · simp only [compileShared, compile, checked, new, shared, alone, bind, Except.bind,
          Except.mapError]

end LayerSpec

end KeyLayers
