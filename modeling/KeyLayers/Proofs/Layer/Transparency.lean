import KeyLayers.Proofs.Layer.Acceptance
import KeyLayers.Proofs.Layer.Correspondence

/-!
# Specifications written in another way

A node can be written in another way: a key in another spelling, a reference as
the body of its definition (`LayerNode.Rewritten`).  The rules for expansions
carry over from one to the other with the same tree, and a node has no more than
one expansion.  As a specification expands to exactly the trees that the rules
give it (`LayerSpec.expand_eq_ok_iff`), one that is written in another way
compiles to the same blocks and variables.

While one of the two follows a reference that the other has written out, fewer
definitions are being expanded in the other.  What is refused as a cycle is
therefore refused less often there, never more often.
-/

namespace KeyLayers

/-! ## One expansion at most -/

theorem exists_of_mem_zip {α β γ : Type} {first : List α} {second : List β} {third : List γ}
    (same : first.length = second.length) {pair : β × γ} (member : pair ∈ second.zip third) :
    ∃ item, (item, pair.1) ∈ first.zip second ∧ (item, pair.2) ∈ first.zip third := by
  rcases List.mem_iff_getElem.1 member with ⟨index, bound, rfl⟩
  rw [List.length_zip, Nat.lt_min] at bound
  have within : index < first.length := same ▸ bound.1
  rw [List.getElem_zip]
  exact ⟨first[index], getElem_mem_zip within bound.1, getElem_mem_zip within bound.2⟩

/-- Entries with the same keys are the same if they are so one by one. -/
theorem TreeEntries.eq_of_zip {entries : LayerMapping} {trees others : TreeEntries}
    {known : LayerNode → Tree → Prop}
    (keys : entries.map (fun entry => Key.parse entry.1) =
      trees.map fun entry => .ok entry.1)
    (otherKeys : entries.map (fun entry => Key.parse entry.1) =
      others.map fun entry => .ok entry.1)
    (inner : ∀ pair ∈ entries.zip trees, ∀ tree, known pair.1.2 tree → pair.2.2 = tree)
    (otherInner : ∀ pair ∈ entries.zip others, known pair.1.2 pair.2.2) :
    trees = others := by
  induction entries generalizing trees others with
  | nil =>
      obtain rfl : [] = trees := by simpa using keys
      obtain rfl : [] = others := by simpa using otherKeys
      rfl
  | cons entry rest ih =>
      cases trees with
      | nil => simp at keys
      | cons tree trees =>
          cases others with
          | nil => simp at otherKeys
          | cons other others =>
              simp only [List.map_cons, List.cons.injEq] at keys otherKeys
              rw [List.zip_cons_cons, List.forall_mem_cons] at inner otherInner
              have key : tree.1 = other.1 :=
                Except.ok.inj (keys.1.symm.trans otherKeys.1)
              have bound : tree.2 = other.2 := inner.1 other.2 otherInner.1
              rw [ih keys.2 otherKeys.2 inner.2 otherInner.2, Prod.ext key bound]

/-- A node has one expansion at most. -/
theorem Expands.unique {definitions : Members LayerMapping} {expanding : List String}
    {node : LayerNode} {tree other : Tree} (expands : Expands definitions expanding node tree)
    (again : Expands definitions expanding node other) : tree = other := by
  induction expands generalizing other with
  | action action =>
      cases again with
      | action => rfl
  | raw binding =>
      cases again with
      | raw => rfl
  | layer nonempty resolved unique checked inner ih =>
      rcases expands_layer_iff.1 again with ⟨others, rfl, -, expansion⟩
      rw [TreeEntries.eq_of_zip resolved expansion.resolved (fun pair member _ => ih pair member)
        expansion.inner]
  | reference found fresh inside ih =>
      cases again with
      | reference foundAgain freshAgain insideAgain =>
          obtain rfl := Option.some.inj (found.symm.trans foundAgain)
          exact ih insideAgain

theorem Expansion.unique_trees {definitions : Members LayerMapping} {expanding : List String}
    {entries : LayerMapping} {trees others : TreeEntries}
    (expansion : Expansion definitions expanding entries trees)
    (again : Expansion definitions expanding entries others) : trees = others :=
  TreeEntries.eq_of_zip expansion.resolved again.resolved
    (fun pair member _ => (expansion.inner pair member).unique) again.inner

/-- The tree of a specification is the one that the rules give to its root. -/
theorem LayerSpec.expand_eq_ok_iff {spec : LayerSpec} {tree : TreeEntries} :
    spec.expand = .ok tree ↔ Expansion spec.definitions [] spec.root tree := by
  constructor
  · exact expansion_of_expand
  · intro expansion
    rcases expand_isOk_iff.2 fun visit visited => sound_of_expansion expansion visited with
      ⟨other, expanded⟩
    rw [expansion.unique_trees (expansion_of_expand expanded)]
    exact expanded

/-! ## Other ways of writing -/

/--
Whether a node is another one written in another way: with other spellings of its
keys, and with some of its references written out.  A reference that is kept names
a definition that may be written in another way, too.
-/
inductive LayerNode.Rewritten (definitions others : Members LayerMapping) :
    LayerNode → LayerNode → Prop where
  | action (action : Action) : Rewritten definitions others (.action action) (.action action)
  | raw (binding : RawBinding) : Rewritten definitions others (.raw binding) (.raw binding)
  | layer {entries written : LayerMapping}
      (keys : written.map (fun entry => Key.parse entry.1) =
        entries.map fun entry => Key.parse entry.1)
      (inner : ∀ pair ∈ entries.zip written,
        Rewritten definitions others pair.1.2 pair.2.2) :
      Rewritten definitions others (.layer entries) (.layer written)
  | inlined {name : String} {body : LayerMapping} {written : LayerNode}
      (found : definitions.get? name = some body)
      (inside : Rewritten definitions others (.layer body) written) :
      Rewritten definitions others (.reference name) written
  | kept {name : String} {body written : LayerMapping}
      (found : definitions.get? name = some body)
      (foundOther : others.get? name = some written)
      (inside : Rewritten definitions others (.layer body) (.layer written)) :
      Rewritten definitions others (.reference name) (.reference name)

/-- Whether a specification is another one written in another way. -/
structure LayerSpec.Rewritten (spec other : LayerSpec) : Prop where
  keys : other.root.map (fun entry => Key.parse entry.1) =
    spec.root.map fun entry => Key.parse entry.1
  inner : ∀ pair ∈ spec.root.zip other.root,
    LayerNode.Rewritten spec.definitions other.definitions pair.1.2 pair.2.2

section

variable {definitions others : Members LayerMapping}

theorem LayerNode.Rewritten.check_eq {node written : LayerNode}
    (rewritten : Rewritten definitions others node written)
    (sound : node.check = .ok ()) : written.check = .ok () := by
  induction rewritten with
  | action action => exact sound
  | raw binding => exact sound
  | layer keys inner ih => rfl
  | inlined found inside ih => exact ih rfl
  | kept found foundOther inside ih => rfl

/-- Entries that are written in another way have the expansion of the former ones. -/
theorem Expansion.rewrite {expanding fewer : List String} {entries written : LayerMapping}
    {trees : TreeEntries} (expansion : Expansion definitions expanding entries trees)
    (keys : written.map (fun entry => Key.parse entry.1) =
      entries.map fun entry => Key.parse entry.1)
    (rewritten : ∀ pair ∈ entries.zip written,
      LayerNode.Rewritten definitions others pair.1.2 pair.2.2)
    (inner : ∀ pair ∈ entries.zip trees, ∀ node,
      LayerNode.Rewritten definitions others pair.1.2 node →
        Expands others fewer node pair.2.2) :
    Expansion others fewer written trees := by
  have lengths : entries.length = written.length := by
    simpa using (congrArg List.length keys).symm
  refine ⟨keys.trans expansion.resolved, expansion.unique, ?_, ?_⟩
  · intro entry member
    rcases List.mem_iff_getElem.1 member with ⟨index, bound, rfl⟩
    have before : index < entries.length := lengths ▸ bound
    exact (rewritten _ (getElem_mem_zip before bound)).check_eq
      (expansion.checked _ (List.getElem_mem before))
  · intro pair member
    rcases exists_of_mem_zip lengths member with ⟨entry, beside, above⟩
    exact inner _ above _ (rewritten _ beside)

/--
A node that is written in another way has the expansion of the former one, where
no more definitions are being expanded.
-/
theorem Expands.rewrite {expanding fewer : List String} {node written : LayerNode}
    {tree : Tree} (expands : Expands definitions expanding node tree)
    (rewritten : LayerNode.Rewritten definitions others node written)
    (subset : fewer ⊆ expanding) : Expands others fewer written tree := by
  induction expands generalizing written fewer with
  | action action =>
      cases rewritten with
      | action => exact .action action
  | raw binding =>
      cases rewritten with
      | raw => exact .raw binding
  | @layer expanding entries trees nonempty resolved unique checked inner ih =>
      cases rewritten with
      | @layer _ other keys rewritten =>
          apply expands_layer_iff.2
          refine ⟨trees, rfl, ?_, ?_⟩
          · rintro rfl
            exact nonempty (List.map_eq_nil_iff.1 keys.symm)
          · exact Expansion.rewrite ⟨resolved, unique, checked, inner⟩ keys rewritten
              fun pair member node rewritten => ih pair member rewritten subset
  | @reference expanding name body tree found fresh inside ih =>
      cases rewritten with
      | inlined again rewritten =>
          -- one name more is being expanded here than there
          obtain rfl := Option.some.inj (found.symm.trans again)
          exact ih rewritten (List.subset_append_of_subset_left _ subset)
      | kept again foundOther rewritten =>
          -- what is fresh here is fresh there, as fewer names are being expanded
          obtain rfl := Option.some.inj (found.symm.trans again)
          refine .reference foundOther (fun member => fresh (subset member)) ?_
          exact ih rewritten (List.append_subset.2
            ⟨List.subset_append_of_subset_left _ subset, List.subset_append_right _ _⟩)

/-- Expanded entries can be written without references if each of their nodes can. -/
theorem exists_written {entries : LayerMapping} {trees : TreeEntries}
    (lengths : entries.length = trees.length)
    (each : ∀ pair ∈ entries.zip trees,
      ∃ node, LayerNode.Rewritten definitions [] pair.1.2 node) :
    ∃ written : LayerMapping,
      written.map (fun entry => Key.parse entry.1) =
        entries.map (fun entry => Key.parse entry.1) ∧
      ∀ pair ∈ entries.zip written,
        LayerNode.Rewritten definitions [] pair.1.2 pair.2.2 := by
  induction entries generalizing trees with
  | nil => exact ⟨[], rfl, by simp⟩
  | cons entry rest ih =>
      cases trees with
      | nil => simp at lengths
      | cons tree trees =>
          rw [List.zip_cons_cons, List.forall_mem_cons] at each
          rcases each with ⟨⟨node, here⟩, each⟩
          rcases ih (Nat.succ.inj lengths) each with ⟨written, keys, inner⟩
          refine ⟨(entry.1, node) :: written, by rw [List.map_cons, List.map_cons, keys], ?_⟩
          rw [List.zip_cons_cons, List.forall_mem_cons]
          exact ⟨here, inner⟩

/-- What has an expansion can be written without references. -/
theorem Expands.exists_rewritten {expanding : List String} {node : LayerNode} {tree : Tree}
    (expands : Expands definitions expanding node tree) :
    ∃ written, LayerNode.Rewritten definitions [] node written := by
  induction expands with
  | action action => exact ⟨_, .action action⟩
  | raw binding => exact ⟨_, .raw binding⟩
  | layer nonempty resolved unique checked inner ih =>
      rcases exists_written (Expansion.length_eq ⟨resolved, unique, checked, inner⟩) ih with
        ⟨written, keys, rewritten⟩
      exact ⟨.layer written, .layer keys rewritten⟩
  | reference found fresh inside ih =>
      rcases ih with ⟨written, rewritten⟩
      exact ⟨written, .inlined found rewritten⟩

end

namespace LayerSpec

variable {spec other : LayerSpec} {tree : TreeEntries}

theorem exists_rewritten (expanded : spec.expand = .ok tree) :
    ∃ root, spec.Rewritten ⟨root, []⟩ := by
  have expansion := expansion_of_expand expanded
  rcases exists_written expansion.length_eq fun pair member =>
      (expansion.inner pair member).exists_rewritten with ⟨written, keys, inner⟩
  exact ⟨written, keys, inner⟩

/-- A specification that is written in another way has the tree of the former one. -/
theorem Rewritten.expand (rewritten : spec.Rewritten other)
    (expanded : spec.expand = .ok tree) : other.expand = .ok tree := by
  have expansion := expansion_of_expand expanded
  apply expand_eq_ok_iff.2
  exact expansion.rewrite rewritten.keys rewritten.inner fun pair member node written =>
    (expansion.inner pair member).rewrite written (List.Subset.refl [])

/-- Definitions that are added behind those of a specification are not reached. -/
theorem agrees_append (expanded : spec.expand = .ok tree) (more : Members LayerMapping) :
    spec.start.Agrees spec.definitions (spec.definitions ++ more) := by
  intro visit visited spelling name member
  rcases (sound_of_expand expanded visited).mapping.known spelling name member with
    ⟨body, found⟩
  simp only [Members.get?, Option.map_eq_some_iff] at found
  rcases found with ⟨definition, hit, -⟩
  rw [Members.get?, Members.get?, List.find?_append, hit, Option.some_or]

/--
A specification that compiles can be written without references, and compiles to
the same blocks and the same variables however it is written: with references
kept or written out, and with any spellings of its keys.  Definitions that are
not reached change nothing, whether it compiles or not.
-/
theorem rewriting_keeps_compilation (spec : LayerSpec) (options : CompileOptions) :
    (∀ compilation, spec.compile options = .ok compilation →
      (∃ root, spec.Rewritten ⟨root, []⟩) ∧
        ∀ other, spec.Rewritten other → other.compile options = .ok compilation) ∧
    ∀ definitions, spec.start.Agrees spec.definitions definitions →
      LayerSpec.compile { spec with definitions } options = spec.compile options := by
  constructor
  · intro compilation compiled
    rcases compile_eq_ok_iff.1 compiled with ⟨checked, tree, expanded, same⟩
    refine ⟨exists_rewritten expanded, fun other rewritten => ?_⟩
    exact compile_eq_ok_iff.2 ⟨checked, tree, rewritten.expand expanded, same⟩
  · intro definitions agrees
    rw [compile, compile, expand_congr agrees]

end LayerSpec

namespace Sample

/-- The layers of `spec`, made of two definitions, one of which is used twice. -/
def linked : LayerSpec where
  root := [("a", .reference "pair"), ("s", .reference "notes")]
  definitions :=
    [("notes", [("n", .action launch)]),
      ("pair", [("b", .reference "notes"), ("l", .action launch)])]

theorem expand_linked : linked.expand = .ok tree := by
  have inOuter : (lock == inner) = false := by decide
  have inRoot : (side == outer) = false := by decide
  simp [LayerSpec.expand, linked, tree, outerTree, innerTree, leaf, LayerSpec.resolveKeys,
    LayerSpec.expandRoot, LayerSpec.expandNode_reference, LayerSpec.expandNode_action,
    LayerSpec.expandLayer, LayerSpec.expandEntries, LayerSpec.checkLeaf_eq,
    LayerSpec.checkLeaves, LayerNode.check, LayerSpec.checkReference, Members.get?,
    Claims.add, List.lookup_nil, List.lookup_cons, parse_outer, parse_inner, parse_side,
    parse_lock, parse_note, check_launch, inOuter, inRoot, bind, Except.bind,
    Except.mapError, Except.map, pure, Except.pure]

theorem compile_linked : linked.compile gated = .ok (gated.compileTree tree) :=
  LayerSpec.compile_eq_ok_iff.2 ⟨by decide +kernel, tree, expand_linked, rfl⟩

/--
`linked` with one reference written out and one kept, with keys in other spellings
and with other definitions besides.
-/
def respelled : LayerSpec where
  root :=
    [("A", .layer [(" b", .reference "notes"), ("L", .action launch)]),
      ("s", .layer [("n", .action launch)])]
  definitions := [("unused", []), ("notes", [("N ", .action launch)])]

theorem rewritten_respelled : linked.Rewritten respelled := by
  have notes : LayerNode.Rewritten linked.definitions respelled.definitions
      (.layer [("n", .action launch)]) (.layer [("N ", .action launch)]) := by
    refine .layer (by decide +kernel) fun pair member => ?_
    rw [List.mem_singleton.1 member]
    exact .action launch
  have side : LayerNode.Rewritten linked.definitions respelled.definitions
      (.layer [("n", .action launch)]) (.layer [("n", .action launch)]) := by
    refine .layer rfl fun pair member => ?_
    rw [List.mem_singleton.1 member]
    exact .action launch
  refine ⟨by decide +kernel, fun pair member => ?_⟩
  rcases List.mem_pair.1 member with rfl | rfl
  · refine .inlined rfl (.layer (by decide +kernel) fun pair member => ?_)
    rcases List.mem_pair.1 member with rfl | rfl
    · exact .kept rfl rfl notes
    · exact .action launch
  · exact .inlined rfl side

theorem respelled_compiles :
    linked.compile gated = .ok (gated.compileTree tree) ∧ linked.Rewritten respelled ∧
      respelled.compile gated = .ok (gated.compileTree tree) ∧
      LayerSpec.compile
          { linked with definitions := linked.definitions ++ [("unused", [])] } gated =
        .ok (gated.compileTree tree) := by
  rcases LayerSpec.rewriting_keeps_compilation linked gated with ⟨written, unreached⟩
  have more := unreached _ (LayerSpec.agrees_append expand_linked [("unused", [])])
  exact ⟨compile_linked, rewritten_respelled,
    (written _ compile_linked).2 respelled rewritten_respelled, more.trans compile_linked⟩

end Sample

end KeyLayers
