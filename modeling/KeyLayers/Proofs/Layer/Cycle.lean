import KeyLayers.Proofs.Layer.Acceptance

/-!
# The recursion of a compilation

References may lead anywhere, so a mapping is no part of the one that it is
entered from.  Still the recursion ends.  On the way to a mapping every
definition is entered at most once, and between two references the layers get
smaller; so the layers nest no deeper than all definitions, each at its full
height, put below the root (`LayerSpec.deepest`).

`compileWithin` is the recursion without its measure: it gives no outcome if the
layers nest deeper than a limit.  Under every sufficient limit its outcome is
that of `compile`.

A cycle that is reported goes through each of its definitions once.
-/

namespace KeyLayers

/-! ## Heights -/

mutual

/-- How many layers are nested in a node; a reference counts as a leaf. -/
def LayerNode.height : LayerNode → Nat
  | .action _ | .raw _ | .reference _ => 0
  | .layer entries => LayerNode.greatestHeight entries + 1

/-- The height of the tallest node among some entries. -/
def LayerNode.greatestHeight : List (String × LayerNode) → Nat
  | [] => 0
  | (_, node) :: rest => max node.height (LayerNode.greatestHeight rest)

end

/-- The height of the tallest definition. -/
def tallest : Members LayerMapping → Nat
  | [] => 0
  | (_, body) :: rest => max (LayerNode.layer body).height (tallest rest)

theorem height_le_tallest {definitions : Members LayerMapping} {name : String}
    {body : LayerMapping} (found : definitions.get? name = some body) :
    (LayerNode.layer body).height ≤ tallest definitions := by
  have member : (name, body) ∈ definitions := by
    simp only [Members.get?, Option.map_eq_some_iff] at found
    rcases found with ⟨⟨other, inner⟩, hit, rfl⟩
    have same : other = name := by simpa using List.find?_some hit
    exact same ▸ List.mem_of_find?_eq_some hit
  clear found
  induction definitions with
  | nil => cases member
  | cons first rest ih =>
      rw [tallest]
      rcases List.mem_cons.1 member with rfl | later
      · exact Nat.le_max_left _ _
      · exact (ih later).trans (Nat.le_max_right _ _)

namespace LayerSpec

/-! ## The recursion under a limit -/

variable (definitions : Members LayerMapping)

/-- Expands a node, given how a layer is expanded. -/
def nodeWithin
    (enter : List String → LeaderPath → LayerMapping → Option (Except CompileError TreeEntries))
    (expanding : List String) (path : LeaderPath) :
    LayerNode → Option (Except CompileError Tree)
  | .action action => some (.ok (.leaf ⟨some action.describe, action.encode⟩))
  | .raw binding => some (.ok (.leaf ⟨binding.description, binding.events⟩))
  | .layer entries => (enter expanding path entries).map (·.map .layer)
  | .reference name =>
      if name ∈ expanding then
        some (.error (.cyclicReference (expanding.dropWhile (· != name) ++ [name])))
      else
        match definitions.get? name with
        | none => some (.error (.unknownReference name path))
        | some body => (enter (expanding ++ [name]) path body).map (·.map .layer)

/-- Expands entries one after the other, up to the first that fails or has no outcome. -/
def entriesWithin (expand : LeaderPath → LayerNode → Option (Except CompileError Tree))
    (path : LeaderPath) :
    List Key → LayerMapping → Option (Except CompileError TreeEntries)
  | key :: keys, (_, node) :: rest =>
      (expand (path.child key) node).bind fun
        | .error error => some (.error error)
        | .ok tree => (entriesWithin expand path keys rest).map (·.map ((key, tree) :: ·))
  | _, _ => some (.ok [])

/-- Expands a layer in which layers may nest up to a limit. -/
def layerWithin :
    Nat → List String → LeaderPath → LayerMapping → Option (Except CompileError TreeEntries)
  | 0, _, _, _ => none
  | limit + 1, expanding, path, entries =>
      if entries.isEmpty then some (.error (.emptyLayer path))
      else
        match resolveKeys definitions path [] entries with
        | .error error => some (.error error)
        | .ok keys =>
            let expand := nodeWithin definitions (layerWithin limit) expanding
            (entriesWithin expand path keys entries).map fun
              | .error error => .error error
              | .ok trees => (checkLeaves path entries).map fun _ => trees

/-- Expands the entries of the root, in which layers may nest up to a limit. -/
def rootWithin (limit : Nat) :
    List Key → LayerMapping → Option (Except CompileError TreeEntries)
  | key :: keys, (spelling, node) :: rest =>
      match checkLeaf .root spelling node with
      | .error error => some (.error error)
      | .ok () =>
          (nodeWithin definitions (layerWithin definitions limit) []
              (LeaderPath.root.child key) node).bind fun
            | .error error => some (.error error)
            | .ok tree => (rootWithin limit keys rest).map (·.map ((key, tree) :: ·))
  | _, _ => some (.ok [])

/-- Compiles a specification in which layers may nest up to a limit. -/
def compileWithin (spec : LayerSpec) (options : CompileOptions) (limit : Nat) :
    Option (Except CompileError Compilation) :=
  match options.check, resolveKeys spec.definitions .root [] spec.root with
  | .error error, _ => some (.error error)
  | .ok (), .error error => some (.error error)
  | .ok (), .ok keys =>
      (rootWithin spec.definitions limit keys spec.root).map (·.map options.compileTree)

/-- How deep the layers of a specification can nest. -/
def deepest (spec : LayerSpec) : Nat :=
  spec.definitions.length * tallest spec.definitions + LayerNode.greatestHeight spec.root

/-! ## A sufficient limit -/

/-- Entering a definition costs at most the height of the tallest one. -/
theorem remaining_mul_tallest_le {expanding : List String} {name : String}
    {body : LayerMapping} (found : definitions.get? name = some body)
    (fresh : name ∉ expanding) :
    remaining definitions (expanding ++ [name]) * tallest definitions +
        (LayerNode.layer body).height ≤
      remaining definitions expanding * tallest definitions := by
  have fewer := remaining_lt (mem_names_of_get? found) fresh
  calc remaining definitions (expanding ++ [name]) * tallest definitions +
        (LayerNode.layer body).height
      ≤ (remaining definitions (expanding ++ [name]) + 1) * tallest definitions := by
        rw [Nat.succ_mul]
        exact Nat.add_le_add_left (height_le_tallest found) _
    _ ≤ remaining definitions expanding * tallest definitions :=
        Nat.mul_le_mul_right _ fewer

/-- A layer takes one level, and leaves the others to its entries. -/
theorem layerWithin_eq {expanding : List String} {path : LeaderPath}
    {entries : LayerMapping} {base limit : Nat}
    (enough : base + (LayerNode.layer entries).height ≤ limit)
    (inner : ∀ below, base + LayerNode.greatestHeight entries ≤ below →
      ∀ keys, ¬ entries.isEmpty → resolveKeys definitions path [] entries = .ok keys →
        entriesWithin (nodeWithin definitions (layerWithin definitions below) expanding)
            path keys entries =
          some (expandEntries definitions expanding path keys entries)) :
    layerWithin definitions limit expanding path entries =
      some (expandLayer definitions expanding path entries) := by
  rw [LayerNode.height] at enough
  cases limit with
  | zero => omega
  | succ below =>
      rw [layerWithin, expandLayer]
      split
      · rfl
      · next some =>
          cases resolved : resolveKeys definitions path [] entries with
          | error error => rfl
          | ok keys =>
              simp only [inner below (by omega) keys some resolved, Option.map_some]
              cases expandEntries definitions expanding path keys entries with
              | error error => rfl
              | ok trees => cases checkLeaves path entries <;> rfl

/-- With enough levels the recursion does what it does without a limit. -/
theorem nodeWithin_eq :
    (∀ expanding path node, ∀ limit,
      remaining definitions expanding * tallest definitions + node.height ≤ limit →
        nodeWithin definitions (layerWithin definitions limit) expanding path node =
          some (expandNode definitions expanding path node)) ∧
    (∀ expanding path entries, ∀ limit,
      remaining definitions expanding * tallest definitions +
          (LayerNode.layer entries).height ≤ limit →
        layerWithin definitions limit expanding path entries =
          some (expandLayer definitions expanding path entries)) ∧
    (∀ expanding path keys entries, ∀ limit,
      remaining definitions expanding * tallest definitions +
          LayerNode.greatestHeight entries ≤ limit →
        entriesWithin (nodeWithin definitions (layerWithin definitions limit) expanding)
            path keys entries =
          some (expandEntries definitions expanding path keys entries)) := by
  refine expandNode.mutual_induct definitions
    (fun expanding path node => ∀ limit, _) (fun expanding path entries => ∀ limit, _)
    (fun expanding path keys entries => ∀ limit, _)
    ?action ?raw ?layer ?cycle ?unknown ?body ?empty ?badKeys ?badEntry ?badLeaf ?sound
    ?badFirst ?badRest ?both ?done
  case action =>
    intro expanding path action limit enough
    rw [nodeWithin, expandNode]
  case raw =>
    intro expanding path binding limit enough
    rw [nodeWithin, expandNode]
  case layer =>
    intro expanding path entries ih limit enough
    rw [nodeWithin, expandNode, ih limit enough, Option.map_some]
  case cycle =>
    intro expanding path name again limit enough
    rw [nodeWithin, expandNode_reference, if_pos again, if_pos again]
  case unknown =>
    intro expanding path name fresh missing limit enough
    simp only [nodeWithin, expandNode_reference, if_neg fresh, missing]
  case body =>
    intro expanding path name fresh body found fewer ih limit enough
    have inner := ih limit
      ((remaining_mul_tallest_le definitions found fresh).trans
        ((Nat.le_add_right _ _).trans enough))
    simp only [nodeWithin, expandNode_reference, if_neg fresh, found, inner, Option.map_some]
  case empty =>
    intro expanding path entries none limit enough
    apply layerWithin_eq definitions enough
    intro below enough keys some
    exact (some none).elim
  case badKeys =>
    intro expanding path entries some error resolved limit enough
    apply layerWithin_eq definitions enough
    intro below enough keys some again
    cases resolved.symm.trans again
  case badEntry =>
    intro expanding path entries some keys resolved error failed ih limit enough
    apply layerWithin_eq definitions enough
    intro below enough others some again
    cases resolved.symm.trans again
    exact ih below enough
  case badLeaf =>
    intro expanding path entries some keys resolved trees expanded error failed ih limit
      enough
    apply layerWithin_eq definitions enough
    intro below enough others some again
    cases resolved.symm.trans again
    exact ih below enough
  case sound =>
    intro expanding path entries some keys resolved trees expanded checked ih limit enough
    apply layerWithin_eq definitions enough
    intro below enough others some again
    cases resolved.symm.trans again
    exact ih below enough
  case badFirst =>
    intro expanding path key keys spelling node rest error failed ih limit enough
    rw [LayerNode.greatestHeight] at enough
    have first := ih limit (by omega)
    simp [entriesWithin, expandEntries, failed, first]
  case badRest =>
    intro expanding path key keys spelling node rest tree first error failed ih restIh
      limit enough
    rw [LayerNode.greatestHeight] at enough
    have here := ih limit (by omega)
    have later := restIh limit (by omega)
    simp [entriesWithin, expandEntries, first, failed, here, later, Except.map]
  case both =>
    intro expanding path key keys spelling node rest tree first trees others ih restIh
      limit enough
    rw [LayerNode.greatestHeight] at enough
    have here := ih limit (by omega)
    have later := restIh limit (by omega)
    simp [entriesWithin, expandEntries, first, others, here, later, Except.map]
  case done =>
    intro expanding path keys entries ended limit enough
    rw [entriesWithin, expandEntries]
    · exact ended
    · exact ended

variable {definitions}

theorem rootWithin_eq {limit : Nat} {keys : List Key} {entries : LayerMapping}
    (enough : definitions.length * tallest definitions +
      LayerNode.greatestHeight entries ≤ limit) :
    rootWithin definitions limit keys entries = some (expandRoot definitions keys entries) := by
  induction entries generalizing keys with
  | nil => cases keys <;> rfl
  | cons entry rest ih =>
      rcases entry with ⟨spelling, node⟩
      cases keys with
      | nil => rfl
      | cons key keys =>
          rw [LayerNode.greatestHeight] at enough
          have all : remaining definitions [] = definitions.length := by
            simp [remaining, Members.names]
          have here := (nodeWithin_eq definitions).1 [] (LeaderPath.root.child key) node limit
            (by rw [all]; omega)
          have later := @ih keys (by omega)
          rw [rootWithin, expandRoot, here, later]
          cases checkLeaf .root spelling node with
          | error error => rfl
          | ok checked =>
              cases expandNode definitions [] (LeaderPath.root.child key) node with
              | error error => rfl
              | ok tree => cases expandRoot definitions keys rest <;> rfl

/-- A limit as great as the layers can nest does not stop the recursion. -/
theorem compileWithin_eq {spec : LayerSpec} {limit : Nat} (options : CompileOptions)
    (enough : spec.deepest ≤ limit) :
    spec.compileWithin options limit = some (spec.compile options) := by
  rw [compileWithin, compile, expand]
  cases options.check with
  | error error => rfl
  | ok checked =>
      cases resolveKeys spec.definitions .root [] spec.root with
      | error error => rfl
      | ok keys =>
          have inner : rootWithin spec.definitions limit keys spec.root =
              some (expandRoot spec.definitions keys spec.root) := rootWithin_eq enough
          show (rootWithin spec.definitions limit keys spec.root).map _ = _
          rw [inner]
          cases same : expandRoot spec.definitions keys spec.root <;>
            simp [same, bind, Except.bind, Except.map, pure, Except.pure]

/-! ## Reported cycles -/

theorem checkReference_ne_cyclic {path : LeaderPath} {node : LayerNode}
    {names : List String} :
    checkReference definitions path node ≠ .error (.cyclicReference names) := by
  intro failed
  rcases checkReference_eq_error failed with ⟨name, -, -, impossible⟩
  cases impossible

theorem resolveKeys_ne_cyclic {path : LeaderPath} {claims : Claims} {entries : LayerMapping}
    {names : List String} :
    resolveKeys definitions path claims entries ≠ .error (.cyclicReference names) := by
  induction entries generalizing claims with
  | nil => simp [resolveKeys]
  | cons entry rest ih =>
      rcases entry with ⟨spelling, node⟩
      intro failed
      simp only [resolveKeys, bind_eq_error_iff, mapError_eq_error_iff, reduceCtorEq,
        and_false, exists_false, false_or, checkReference_ne_cyclic, ih, pure_ne_error]
        at failed

theorem checkLeaves_ne_cyclic {path : LeaderPath} {entries : LayerMapping}
    {names : List String} :
    checkLeaves path entries ≠ .error (.cyclicReference names) := by
  induction entries with
  | nil => simp [checkLeaves]
  | cons entry rest ih =>
      rcases entry with ⟨spelling, node⟩
      simp [checkLeaves, checkLeaf_eq, ih]

/-- As no definition is entered again on the way, a cycle has each of its names once. -/
theorem nodup_of_expandNode (names : List String) :
    (∀ expanding path node, expanding.Nodup →
      expandNode definitions expanding path node = .error (.cyclicReference names) →
        names.dropLast.Nodup) ∧
    (∀ expanding path entries, expanding.Nodup →
      expandLayer definitions expanding path entries = .error (.cyclicReference names) →
        names.dropLast.Nodup) ∧
    (∀ expanding path keys entries, expanding.Nodup →
      expandEntries definitions expanding path keys entries =
          .error (.cyclicReference names) →
        names.dropLast.Nodup) := by
  refine expandNode.mutual_induct definitions
    (fun expanding path node => _) (fun expanding path entries => _)
    (fun expanding path keys entries => _)
    ?action ?raw ?layer ?cycle ?unknown ?body ?empty ?badKeys ?badEntry ?badLeaf ?sound
    ?badFirst ?badRest ?both ?done
  case action =>
    intro expanding path action once failed
    simp [expandNode] at failed
  case raw =>
    intro expanding path binding once failed
    simp [expandNode] at failed
  case layer =>
    intro expanding path entries ih once failed
    rw [expandNode, map_eq_error_iff] at failed
    exact ih once failed
  case cycle =>
    intro expanding path name again once failed
    rw [expandNode_reference, if_pos again] at failed
    cases failed
    rw [List.dropLast_concat]
    exact once.sublist (List.dropWhile_sublist _)
  case unknown =>
    intro expanding path name fresh missing once failed
    simp [expandNode_reference, fresh, missing] at failed
  case body =>
    intro expanding path name fresh body found fewer ih once failed
    simp only [expandNode_reference, if_neg fresh, found, map_eq_error_iff] at failed
    apply ih _ failed
    exact List.nodup_append.2 ⟨once, List.nodup_singleton name, by
      intro other member last isLast same
      rw [List.mem_singleton.1 isLast] at same
      exact fresh (same ▸ member)⟩
  case empty =>
    intro expanding path entries none once failed
    simp [expandLayer, none] at failed
  case badKeys =>
    intro expanding path entries some error resolved once failed
    simp only [expandLayer, some, resolved] at failed
    cases failed
    exact (resolveKeys_ne_cyclic resolved).elim
  case badEntry =>
    intro expanding path entries some keys resolved error expanded ih once failed
    simp only [expandLayer, some, resolved, expanded] at failed
    cases failed
    exact ih once expanded
  case badLeaf =>
    intro expanding path entries some keys resolved trees expanded error checked ih once
      failed
    simp only [expandLayer, some, resolved, expanded, checked] at failed
    cases failed
    exact (checkLeaves_ne_cyclic checked).elim
  case sound =>
    intro expanding path entries some keys resolved trees expanded checked ih once failed
    simp [expandLayer, some, resolved, expanded, checked] at failed
  case badFirst =>
    intro expanding path key keys spelling node rest error first ih once failed
    simp only [expandEntries, first] at failed
    cases failed
    exact ih once first
  case badRest =>
    intro expanding path key keys spelling node rest tree first error others ih restIh once
      failed
    simp only [expandEntries, first, others] at failed
    cases failed
    exact restIh once others
  case both =>
    intro expanding path key keys spelling node rest tree first trees others ih restIh once
      failed
    simp [expandEntries, first, others] at failed
  case done =>
    intro expanding path keys entries ended once failed
    rw [expandEntries] at failed
    · cases failed
    · exact ended

theorem nodup_of_expandRoot {names : List String} {keys : List Key} {entries : LayerMapping}
    (failed : expandRoot definitions keys entries = .error (.cyclicReference names)) :
    names.dropLast.Nodup := by
  induction entries generalizing keys with
  | nil => cases keys <;> cases failed
  | cons entry rest ih =>
      rcases entry with ⟨spelling, node⟩
      cases keys with
      | nil => cases failed
      | cons key keys =>
          simp only [expandRoot, checkLeaf_eq, bind_eq_error_iff, mapError_eq_error_iff,
            reduceCtorEq, and_false, exists_false, false_or, pure_ne_error, or_false]
            at failed
          rcases failed with ⟨-, -, failed | ⟨tree, -, failed⟩⟩
          · exact (nodup_of_expandNode names).1 _ _ _ List.nodup_nil failed
          · exact ih failed

theorem nodup_of_expand {spec : LayerSpec} {names : List String}
    (failed : spec.expand = .error (.cyclicReference names)) : names.dropLast.Nodup := by
  simp only [expand, bind_eq_error_iff] at failed
  rcases failed with failed | ⟨keys, -, failed⟩
  · exact (resolveKeys_ne_cyclic failed).elim
  · exact nodup_of_expandRoot failed

/--
The recursion ends: layers nest no deeper than `deepest`, and where that many may
nest, the outcome is that of `compile`.  A cycle that is reported is one: it
comes back to its first name, passes every other name once, and the body of each
name on it mentions the next one.
-/
theorem compile_ends_with_real_cycles (spec : LayerSpec) (options : CompileOptions) :
    (∀ limit, spec.deepest ≤ limit →
      spec.compileWithin options limit = some (spec.compile options)) ∧
    ∀ names, spec.compile options = .error (.cyclicReference names) →
      2 ≤ names.length ∧ names.head? = names.getLast? ∧ names.dropLast.Nodup ∧
        names.IsChain (Refers spec.definitions) := by
  constructor
  · intro limit enough
    exact compileWithin_eq options enough
  · intro names failed
    rcases compile_eq_error spec options failed with failed | failed
    · rcases CompileOptions.hasDefect_of_check failed with ⟨defect, impossible, -⟩
      cases impossible
    · rcases defect_of_expand failed with ⟨visit, visited, spelling, name, member, again,
        names_eq⟩
      have cycle : Cycle spec.definitions names :=
        names_eq ▸ cycle_of_visits visited member again
      rcases cycle with ⟨chain, first, between, split⟩
      refine ⟨?_, ?_, nodup_of_expand failed, chain⟩
      · simp [split]
      · rw [split, ← List.cons_append, List.getLast?_concat, List.cons_append, List.head?_cons]

end LayerSpec

/-! ## Two definitions that refer to each other -/

namespace Sample

/-- The body of `x` refers to `y` from a layer inside it, and `y` refers back to `x`. -/
def looped : LayerSpec where
  root := [("a", .reference "x")]
  definitions :=
    [("x", [("b", .layer [("l", .reference "y")])]), ("y", [("s", .reference "x")])]

theorem compile_looped : looped.compile {} = .error (.cyclicReference ["x", "y", "x"]) := by
  have checked : CompileOptions.check {} = .ok () := by decide +kernel
  simp [LayerSpec.compile, LayerSpec.expand, looped, checked, LayerSpec.resolveKeys,
    LayerSpec.expandRoot, LayerSpec.expandNode_reference, LayerSpec.expandNode_layer,
    LayerSpec.expandLayer, LayerSpec.expandEntries, LayerSpec.checkLeaf_eq,
    LayerNode.check, LayerSpec.checkReference, Members.get?, Claims.add, List.lookup_nil,
    parse_outer, parse_inner, parse_side, parse_lock, bind, Except.bind, Except.mapError,
    Except.map, pure, Except.pure]

theorem looped_ends_with_real_cycle :
    looped.compileWithin {} 4 = some (.error (.cyclicReference ["x", "y", "x"])) ∧
      Refers looped.definitions "x" "y" ∧ Refers looped.definitions "y" "x" := by
  rcases LayerSpec.compile_ends_with_real_cycles looped {} with ⟨ends, cycles⟩
  have deep : looped.deepest = 4 := by decide
  rcases cycles _ compile_looped with ⟨-, -, -, chain⟩
  rcases List.isChain_cons_cons.1 chain with ⟨first, chain⟩
  exact ⟨compile_looped ▸ ends 4 deep.le, first, List.isChain_pair.1 chain⟩

end Sample

end KeyLayers
