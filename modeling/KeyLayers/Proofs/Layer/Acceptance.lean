import KeyLayers.Proofs.Layer.Defect
import Mathlib.Data.List.Chain
import Mathlib.Data.List.Nodup
import Mathlib.Data.List.TakeWhile

/-!
# Which specifications compile

A specification compiles under sound options exactly when every mapping that is
visited from the root is sound, and soundness looks at one mapping at a time.
Of the way to the mapping it takes only the definitions that are still being
expanded, so a definition may be used in as many places as an author likes; it
is refused only where it leads back to itself.

Definitions that no visited mapping refers to are never looked at.
-/

namespace KeyLayers

/-! ## Sound mappings -/

/-- What makes a mapping acceptable by itself. -/
structure LayerMapping.Sound (definitions : Members LayerMapping)
    (entries : LayerMapping) : Prop where
  resolved : ∀ entry ∈ entries, ∃ key, Key.parse entry.1 = .ok key
  distinct : entries.Pairwise fun left right =>
    ∀ key, Key.parse left.1 = .ok key → Key.parse right.1 ≠ .ok key
  known : ∀ spelling name, (spelling, .reference name) ∈ entries →
    ∃ body, definitions.get? name = some body
  checked : ∀ entry ∈ entries, entry.2.check = .ok ()

/-- What makes a mapping acceptable where it is visited. -/
structure Visit.Sound (definitions : Members LayerMapping) (visit : Visit) : Prop where
  mapping : visit.entries.Sound definitions
  nonempty : visit.path ≠ .root → visit.entries ≠ []
  fresh : ∀ spelling name, (spelling, .reference name) ∈ visit.entries →
    name ∉ visit.expanding

section

variable {definitions : Members LayerMapping} {visit next : Visit} {trees : TreeEntries}

theorem Expansion.sound
    (expansion : Expansion definitions visit.expanding visit.entries trees)
    (nonempty : visit.path ≠ .root → visit.entries ≠ []) : visit.Sound definitions := by
  have reference : ∀ spelling name, (spelling, .reference name) ∈ visit.entries →
      (∃ body, definitions.get? name = some body) ∧ name ∉ visit.expanding := by
    intro spelling name member
    rcases expansion.exists_of_mem member with ⟨key, tree, -, -, expands⟩
    cases expands with
    | reference found fresh inside => exact ⟨⟨_, found⟩, fresh⟩
  refine ⟨⟨?_, ?_, fun spelling name member => (reference spelling name member).1,
    expansion.checked⟩, nonempty,
    fun spelling name member => (reference spelling name member).2⟩
  · rintro ⟨spelling, node⟩ member
    rcases expansion.exists_of_mem member with ⟨key, tree, -, parsed, -⟩
    exact ⟨key, parsed⟩
  · have injective : Function.Injective (Except.ok (ε := NameError) (α := Key)) :=
      fun _ _ => Except.ok.inj
    have different : (visit.entries.map fun entry => Key.parse entry.1).Nodup := by
      rw [expansion.resolved]
      show (trees.map (Except.ok ∘ Prod.fst)).Nodup
      rw [← List.map_map]
      exact List.Nodup.map injective expansion.unique
    apply (List.pairwise_map.1 different).imp
    intro left right apart key leftParsed rightParsed
    exact apart (leftParsed.trans rightParsed.symm)

/-- A mapping that is entered from an expanded one has been expanded, too. -/
theorem Expansion.of_enters
    (expansion : Expansion definitions visit.expanding visit.entries trees)
    (step : visit.Enters definitions next) :
    next.entries ≠ [] ∧
      ∃ inner, Expansion definitions next.expanding next.entries inner := by
  cases step with
  | layer member parsed =>
      rcases expansion.exists_of_mem member with ⟨key, tree, -, -, expands⟩
      rcases expands_layer_iff.1 expands with ⟨inner, -, nonempty, below⟩
      exact ⟨nonempty, inner, below⟩
  | reference member parsed found =>
      rcases expansion.exists_of_mem member with ⟨key, tree, -, -, expands⟩
      cases expands with
      | reference again fresh inside =>
          rcases expands_layer_iff.1 inside with ⟨inner, -, nonempty, below⟩
          obtain rfl := Option.some.inj (found.symm.trans again)
          exact ⟨nonempty, inner, below⟩

/-- Nothing that an error says is true of a sound mapping. -/
theorem Visit.Sound.not_found (sound : visit.Sound definitions) (error : CompileError) :
    ¬ error.FoundAt definitions visit := by
  intro found
  cases error with
  | unknownKey spelling path =>
      rcases found with ⟨-, member, unparsed⟩
      rcases List.mem_map.1 member with ⟨entry, here, rfl⟩
      rcases sound.mapping.resolved entry here with ⟨key, parsed⟩
      exact unparsed key parsed
  | duplicateKey spelling first path =>
      rcases found with ⟨-, inOrder, key, firstParsed, parsed⟩
      have apart : (visit.entries.map Prod.fst).Pairwise fun left right =>
          ∀ key, Key.parse left = .ok key → Key.parse right ≠ .ok key :=
        List.pairwise_map.2 sound.mapping.distinct
      exact (List.pairwise_pair.1 (apart.sublist inOrder)) key firstParsed parsed
  | emptyLayer path =>
      rcases found with ⟨rfl, inner, empty⟩
      exact sound.nonempty inner empty
  | cyclicReference names =>
      rcases found with ⟨spelling, name, member, again, -⟩
      exact sound.fresh spelling name member again
  | unknownReference name path =>
      rcases found with ⟨spelling, key, member, -, -, missing⟩
      rcases sound.mapping.known spelling name member with ⟨body, known⟩
      rw [missing] at known
      cases known
  | invalidBinding spelling path defect =>
      rcases found with ⟨-, node, member, unsound⟩
      rw [sound.mapping.checked _ member] at unsound
      cases unsound
  | invalidOptions defect => exact found

end

namespace LayerSpec

/-- Every mapping on the way is sound if the root has an expansion. -/
theorem sound_of_expansion {spec : LayerSpec} {tree : TreeEntries}
    (whole : Expansion spec.definitions [] spec.root tree) {visit : Visit}
    (visited : spec.Visits visit) : visit.Sound spec.definitions := by
  have expansion : (visit.path ≠ .root → visit.entries ≠ []) ∧
      ∃ trees, Expansion spec.definitions visit.expanding visit.entries trees := by
    induction visited with
    | refl => exact ⟨fun inner => (inner rfl).elim, tree, whole⟩
    | tail _ step ih =>
        rcases ih with ⟨-, trees, expansion⟩
        rcases expansion.of_enters step with ⟨nonempty, inner⟩
        exact ⟨fun _ => nonempty, inner⟩
  rcases expansion with ⟨nonempty, trees, expansion⟩
  exact expansion.sound nonempty

theorem sound_of_expand {spec : LayerSpec} {tree : TreeEntries}
    (expanded : spec.expand = .ok tree) {visit : Visit} (visited : spec.Visits visit) :
    visit.Sound spec.definitions :=
  sound_of_expansion (expansion_of_expand expanded) visited

/-- A tree results exactly when every mapping on the way is sound. -/
theorem expand_isOk_iff {spec : LayerSpec} :
    (∃ tree, spec.expand = .ok tree) ↔
      ∀ visit, spec.Visits visit → visit.Sound spec.definitions := by
  constructor
  · rintro ⟨tree, expanded⟩ visit visited
    exact sound_of_expand expanded visited
  · intro sound
    cases outcome : spec.expand with
    | ok tree => exact ⟨tree, rfl⟩
    | error error =>
        rcases defect_of_expand outcome with ⟨visit, visited, found⟩
        exact ((sound visit visited).not_found error found).elim

end LayerSpec

/-! ## Definitions that refer to each other -/

/-- Whether a node refers to a definition at any depth. -/
inductive LayerNode.Mentions : LayerNode → String → Prop where
  | reference (name : String) : Mentions (.reference name) name
  | layer {entries : LayerMapping} {entry : String × LayerNode} {name : String}
      (member : entry ∈ entries) (inside : Mentions entry.2 name) :
      Mentions (.layer entries) name

/-- Whether the body of a definition refers to another one. -/
def Refers (definitions : Members LayerMapping) (source target : String) : Prop :=
  ∃ body, definitions.get? source = some body ∧ (LayerNode.layer body).Mentions target

namespace LayerSpec

variable {spec : LayerSpec} {visit : Visit}

/-- Each definition being expanded refers to the next one, and the last to what follows. -/
theorem refers_of_visits (visited : spec.Visits visit) :
    visit.expanding.IsChain (Refers spec.definitions) ∧
      ∀ last ∈ visit.expanding.getLast?, ∀ name,
        (LayerNode.layer visit.entries).Mentions name →
          Refers spec.definitions last name := by
  induction visited with
  | refl =>
      constructor
      · exact .nil
      · intro last impossible
        cases impossible
  | @tail visit next _ step ih =>
      rcases ih with ⟨chain, mentioned⟩
      cases step with
      | layer member parsed =>
          refine ⟨chain, ?_⟩
          intro last isLast name mentions
          exact mentioned last isLast name (.layer member mentions)
      | @reference spelling name key body member parsed found =>
          constructor
          · apply List.isChain_append.2
            refine ⟨chain, .singleton name, ?_⟩
            intro last isLast first isFirst
            cases isFirst
            exact mentioned last isLast name (.layer member (.reference name))
          · intro last isLast other mentions
            rw [List.getLast?_concat] at isLast
            cases isLast
            exact ⟨body, found, mentions⟩

end LayerSpec

/-- Whether some names refer to each other all around, the first one again at the end. -/
def Cycle (definitions : Members LayerMapping) (names : List String) : Prop :=
  names.IsChain (Refers definitions) ∧ ∃ name between, names = name :: (between ++ [name])

theorem Cycle.transGen {definitions : Members LayerMapping} {start : List String}
    {name : String} (cycle : Cycle definitions (start ++ [name])) :
    Relation.TransGen (Refers definitions) name name := by
  rcases cycle with ⟨chain, first, between, same⟩
  rw [← List.cons_append] at same
  rcases List.append_inj' same rfl with ⟨rfl, last⟩
  obtain rfl : name = first := List.singleton_inj.1 last
  cases between with
  | nil => exact .single (List.isChain_pair.1 chain)
  | cons next rest =>
      rcases List.isChain_cons_cons.1 chain with ⟨step, chain⟩
      have around : (next :: (rest ++ [name])).getLast (List.cons_ne_nil _ _) = name := by
        simp
      exact .head' step
        (List.relationReflTransGen_of_exists_isChain_cons (rest ++ [name]) chain around)

namespace LayerSpec

variable {spec : LayerSpec} {visit : Visit}

/-- From a definition that is entered again the way leads back to it. -/
theorem cycle_of_visits {spelling name : String} (visited : spec.Visits visit)
    (member : (spelling, .reference name) ∈ visit.entries)
    (again : name ∈ visit.expanding) :
    Cycle spec.definitions (visit.expanding.dropWhile (· != name) ++ [name]) := by
  rcases refers_of_visits visited with ⟨chain, mentioned⟩
  have mentions : (LayerNode.layer visit.entries).Mentions name :=
    .layer member (.reference name)
  have found : ∃ after, visit.expanding.dropWhile (· != name) = name :: after := by
    cases outcome : visit.expanding.dropWhile (· != name) with
    | nil =>
        have passed := List.dropWhile_eq_nil_iff.1 outcome name again
        simp at passed
    | cons first after =>
        have stopped := List.head?_dropWhile_not (· != name) visit.expanding
        rw [outcome] at stopped
        have same : first = name := by simpa using stopped
        exact ⟨after, by rw [same]⟩
  rcases found with ⟨after, split⟩
  have isSuffix : name :: after <:+ visit.expanding := split ▸ List.dropWhile_suffix _
  refine ⟨?_, name, after, by rw [split, List.cons_append]⟩
  rw [split]
  apply List.isChain_append.2
  refine ⟨chain.suffix isSuffix, .singleton name, ?_⟩
  intro last isLast first isFirst
  cases isFirst
  have isLastOfAll : last ∈ visit.expanding.getLast? := by
    rcases isSuffix with ⟨before, whole⟩
    rw [← whole, List.getLast?_append, isLast]
    rfl
  exact mentioned last isLastOfAll name mentions

end LayerSpec

/-! ## Definitions that are not reached -/

/-- Whether other definitions give the same body to every name that a visit leads to. -/
def Visit.Agrees (definitions other : Members LayerMapping) (visit : Visit) : Prop :=
  ∀ last, visit.Reaches definitions last →
    ∀ spelling name, (spelling, .reference name) ∈ last.entries →
      other.get? name = definitions.get? name

namespace LayerSpec

variable {definitions other : Members LayerMapping} {visit next : Visit}

theorem agrees_of_enters (agrees : visit.Agrees definitions other)
    (step : visit.Enters definitions next) : next.Agrees definitions other := by
  intro last steps
  exact agrees last (.head step steps)

theorem resolveKeys_congr (path : LeaderPath) (claims : Claims) {rest : LayerMapping}
    (same : ∀ spelling name, (spelling, .reference name) ∈ rest →
      other.get? name = definitions.get? name) :
    resolveKeys other path claims rest = resolveKeys definitions path claims rest := by
  induction rest generalizing claims with
  | nil => rfl
  | cons entry rest ih =>
      rcases entry with ⟨spelling, node⟩
      have tail : ∀ claims, resolveKeys other path claims rest =
          resolveKeys definitions path claims rest := by
        intro claims
        exact ih claims fun spelling name member => same spelling name (.tail _ member)
      have looked : ∀ inner, checkReference other inner node =
          checkReference definitions inner node := by
        intro inner
        cases node with
        | reference name =>
            rw [checkReference, checkReference, same spelling name (.head _)]
        | action action => rfl
        | raw binding => rfl
        | layer entries => rfl
      simp only [resolveKeys, tail, looked]

theorem expandLayer_congr {expanding : List String} {path : LeaderPath}
    {entries : LayerMapping}
    (agrees : Visit.Agrees definitions other ⟨expanding, path, entries⟩)
    (inner : ∀ keys, resolveKeys definitions path [] entries = .ok keys →
      expandEntries other expanding path keys entries =
        expandEntries definitions expanding path keys entries) :
    expandLayer other expanding path entries =
      expandLayer definitions expanding path entries := by
  have same : resolveKeys other path [] entries =
      resolveKeys definitions path [] entries :=
    resolveKeys_congr path [] (agrees _ .refl)
  rw [expandLayer, expandLayer, same]
  cases resolved : resolveKeys definitions path [] entries with
  | error failure => rfl
  | ok keys => simp only [inner keys resolved]

/-- Inside a mapping only the definitions that it leads to are looked at. -/
theorem expandNode_congr (definitions other : Members LayerMapping) :
    (∀ expanding path node (visit : Visit) spelling key, visit.expanding = expanding →
      visit.path.child key = path → (spelling, node) ∈ visit.entries →
        Key.parse spelling = .ok key → visit.Agrees definitions other →
          expandNode other expanding path node =
            expandNode definitions expanding path node) ∧
    (∀ expanding path entries, Visit.Agrees definitions other ⟨expanding, path, entries⟩ →
      expandLayer other expanding path entries =
        expandLayer definitions expanding path entries) ∧
    (∀ expanding path keys rest (visit : Visit), visit.expanding = expanding →
      visit.path = path → rest ⊆ visit.entries →
        rest.map (fun entry => Key.parse entry.1) = keys.map .ok →
          visit.Agrees definitions other →
            expandEntries other expanding path keys rest =
              expandEntries definitions expanding path keys rest) := by
  refine expandNode.mutual_induct definitions
    (fun expanding path node => ∀ (visit : Visit) spelling key, _)
    (fun expanding path entries => _) (fun expanding path keys rest => ∀ visit : Visit, _)
    ?action ?raw ?layer ?cycle ?unknown ?body ?empty ?badKeys ?badEntry ?badLeaf ?sound
    ?badFirst ?badRest ?both ?done
  case action =>
    intros
    simp only [expandNode]
  case raw =>
    intros
    simp only [expandNode]
  case layer =>
    rintro expanding path entries ih visit spelling key rfl rfl member parsed agrees
    rw [expandNode, expandNode, ih (agrees_of_enters agrees (.layer member parsed))]
  case cycle =>
    rintro expanding path name again visit spelling key rfl rfl member parsed agrees
    rw [expandNode_reference, expandNode_reference, if_pos again, if_pos again]
  case unknown =>
    rintro expanding path name fresh missing visit spelling key rfl rfl member parsed agrees
    rw [expandNode_reference, expandNode_reference,
      agrees visit .refl spelling name member, missing]
  case body =>
    rintro expanding path name fresh body found fewer ih visit spelling key rfl rfl member
      parsed agrees
    have below := ih (agrees_of_enters agrees (.reference member parsed found))
    simp only [expandNode_reference, agrees visit .refl spelling name member, found, below]
  case empty =>
    intro expanding path entries none agrees
    simp only [expandLayer, none, if_true]
  case badKeys =>
    intro expanding path entries some failure resolved agrees
    apply expandLayer_congr agrees
    intro keys again
    cases resolved.symm.trans again
  case badEntry =>
    intro expanding path entries some keys resolved failure expanded ih agrees
    apply expandLayer_congr agrees
    intro others again
    cases resolved.symm.trans again
    exact ih _ rfl rfl (List.Subset.refl entries) (keys_of_resolveKeys resolved).1 agrees
  case badLeaf =>
    intro expanding path entries some keys resolved trees expanded failure checked ih agrees
    apply expandLayer_congr agrees
    intro others again
    cases resolved.symm.trans again
    exact ih _ rfl rfl (List.Subset.refl entries) (keys_of_resolveKeys resolved).1 agrees
  case sound =>
    intro expanding path entries some keys resolved trees expanded checked ih agrees
    apply expandLayer_congr agrees
    intro others again
    cases resolved.symm.trans again
    exact ih _ rfl rfl (List.Subset.refl entries) (keys_of_resolveKeys resolved).1 agrees
  case badFirst =>
    rintro expanding path key keys spelling node rest failure first ih visit rfl rfl within
      parsed agrees
    have here := ih visit spelling key rfl rfl (within (.head _))
      (List.cons.inj parsed).1 agrees
    simp only [expandEntries, here, first]
  case badRest =>
    rintro expanding path key keys spelling node rest tree first failure others ih restIh
      visit rfl rfl within parsed agrees
    have here := ih visit spelling key rfl rfl (within (.head _))
      (List.cons.inj parsed).1 agrees
    have tail := restIh visit rfl rfl (fun _ member => within (.tail _ member))
      (List.cons.inj parsed).2 agrees
    simp only [expandEntries, here, tail]
  case both =>
    rintro expanding path key keys spelling node rest tree first trees others ih restIh
      visit rfl rfl within parsed agrees
    have here := ih visit spelling key rfl rfl (within (.head _))
      (List.cons.inj parsed).1 agrees
    have tail := restIh visit rfl rfl (fun _ member => within (.tail _ member))
      (List.cons.inj parsed).2 agrees
    simp only [expandEntries, here, tail]
  case done =>
    intro expanding path keys rest ended visit
    rw [expandEntries, expandEntries]
    · intros
      rfl
    · exact ended
    · exact ended

theorem expandRoot_congr {keys : List Key} {rest : LayerMapping}
    (outermost : visit.path = .root) (unentered : visit.expanding = [])
    (within : rest ⊆ visit.entries)
    (parsed : rest.map (fun entry => Key.parse entry.1) = keys.map .ok)
    (agrees : visit.Agrees definitions other) :
    expandRoot other keys rest = expandRoot definitions keys rest := by
  induction rest generalizing keys with
  | nil => cases keys <;> rfl
  | cons entry rest ih =>
      rcases entry with ⟨spelling, node⟩
      cases keys with
      | nil => rfl
      | cons key keys =>
          have here := (expandNode_congr definitions other).1 [] (LeaderPath.root.child key)
            node visit spelling key unentered (by rw [outermost]) (within (.head _))
            (List.cons.inj parsed).1 agrees
          have tail := ih (fun _ member => within (.tail _ member)) (List.cons.inj parsed).2
          simp only [expandRoot, here, tail]

/-- Definitions that no visited mapping refers to make no difference. -/
theorem expand_congr {spec : LayerSpec} {others : Members LayerMapping}
    (agrees : spec.start.Agrees spec.definitions others) :
    LayerSpec.expand { spec with definitions := others } = spec.expand := by
  have same : resolveKeys others .root [] spec.root =
      resolveKeys spec.definitions .root [] spec.root :=
    resolveKeys_congr .root [] (agrees spec.start .refl)
  rw [expand, expand, same]
  cases resolved : resolveKeys spec.definitions .root [] spec.root with
  | error failure => rfl
  | ok keys =>
      have inner : expandRoot others keys spec.root =
          expandRoot spec.definitions keys spec.root :=
        expandRoot_congr rfl rfl (List.Subset.refl spec.root)
          (keys_of_resolveKeys resolved).1 agrees
      exact inner

end LayerSpec

/-! ## Acceptance -/

/-- Whether a defect is one of the base name or of a condition of the options. -/
def CompileOptions.HasDefect (options : CompileOptions) (defect : Defect) : Prop :=
  checkVariableName options.base = .error defect ∨
    ∃ condition ∈ options.rootConditions ++ options.contextConditions,
      condition.check = .error defect

theorem exists_of_checkAll {α : Type} {check : α → Except Defect Unit} {items : List α}
    {defect : Defect} (failed : checkAll check items = .error defect) :
    ∃ item ∈ items, check item = .error defect := by
  induction items with
  | nil => cases failed
  | cons item rest ih =>
      rw [checkAll] at failed
      split at failed
      · rcases ih failed with ⟨other, member, unsound⟩
        exact ⟨other, .tail _ member, unsound⟩
      · next unsound =>
          cases failed
          exact ⟨item, .head _, unsound⟩

theorem CompileOptions.hasDefect_of_check {options : CompileOptions} {error : CompileError}
    (failed : options.check = .error error) :
    ∃ defect, error = .invalidOptions defect ∧ options.HasDefect defect := by
  simp only [check, mapError_eq_error_iff, bind_eq_error_iff] at failed
  rcases failed with ⟨defect, failed, rfl⟩
  refine ⟨defect, rfl, ?_⟩
  rcases failed with base | ⟨-, -, conditions⟩
  · exact Or.inl base
  · exact Or.inr (exists_of_checkAll conditions)

namespace LayerSpec

variable (spec : LayerSpec) (options : CompileOptions)

theorem compile_isOk_iff :
    (∃ compilation, spec.compile options = .ok compilation) ↔
      options.check = .ok () ∧ ∃ tree, spec.expand = .ok tree := by
  simp only [compile_eq_ok_iff]
  constructor
  · rintro ⟨compilation, checked, tree, expanded, -⟩
    exact ⟨checked, tree, expanded⟩
  · rintro ⟨checked, tree, expanded⟩
    exact ⟨_, checked, tree, expanded, rfl⟩

/-- An error comes from the options or from the expansion. -/
theorem compile_eq_error {error : CompileError}
    (failed : spec.compile options = .error error) :
    options.check = .error error ∨ spec.expand = .error error := by
  simp only [compile, bind_eq_error_iff, pure_ne_error, and_false, exists_false,
    or_false] at failed
  rcases failed with failed | ⟨-, -, failed⟩
  · exact Or.inl failed
  · exact Or.inr failed

/--
Exactly the sound specifications compile.  While no definition on the way leads
back to itself, it does not matter where and how often one is used; definitions
that are not reached do not matter at all; and what an error says is true.
-/
theorem compile_accepts_sound :
    ((∃ compilation, spec.compile options = .ok compilation) ↔
      options.check = .ok () ∧
        ∀ visit, spec.Visits visit → visit.Sound spec.definitions) ∧
    ((∀ visit, spec.Visits visit → ∀ name ∈ visit.expanding,
        ¬ Relation.TransGen (Refers spec.definitions) name name) →
      (∀ names, spec.compile options ≠ .error (.cyclicReference names)) ∧
      ((∃ compilation, spec.compile options = .ok compilation) ↔
        options.check = .ok () ∧ ∀ visit, spec.Visits visit →
          visit.entries.Sound spec.definitions ∧
            (visit.path ≠ .root → visit.entries ≠ []))) ∧
    (∀ definitions, spec.start.Agrees spec.definitions definitions →
      LayerSpec.compile { spec with definitions } options = spec.compile options) ∧
    (∀ error, spec.compile options = .error error →
      (∃ defect, error = .invalidOptions defect ∧ options.HasDefect defect) ∨
        ∃ visit, spec.Visits visit ∧ error.FoundAt spec.definitions visit) ∧
    ∀ names, spec.compile options = .error (.cyclicReference names) →
      Cycle spec.definitions names := by
  have accepted : (∃ compilation, spec.compile options = .ok compilation) ↔
      options.check = .ok () ∧
        ∀ visit, spec.Visits visit → visit.Sound spec.definitions :=
    (compile_isOk_iff spec options).trans (and_congr_right fun _ => expand_isOk_iff)
  have errors : ∀ error, spec.compile options = .error error →
      (∃ defect, error = .invalidOptions defect ∧ options.HasDefect defect) ∨
        ∃ visit, spec.Visits visit ∧ error.FoundAt spec.definitions visit := by
    intro error failed
    rcases compile_eq_error spec options failed with failed | failed
    · exact Or.inl (CompileOptions.hasDefect_of_check failed)
    · exact Or.inr (defect_of_expand failed)
  refine ⟨accepted, ?_, ?_, errors, ?_⟩
  · intro acyclic
    constructor
    · intro names failed
      rcases errors _ failed with ⟨defect, impossible, -⟩ | ⟨visit, visited, found⟩
      · cases impossible
      · rcases found with ⟨spelling, name, member, again, rfl⟩
        exact acyclic visit visited name again (cycle_of_visits visited member again).transGen
    · rw [accepted]
      refine and_congr_right fun _ => ?_
      refine forall_congr' fun visit => forall_congr' fun visited => ?_
      constructor
      · intro sound
        exact ⟨sound.mapping, sound.nonempty⟩
      · rintro ⟨mapping, nonempty⟩
        refine ⟨mapping, nonempty, ?_⟩
        intro spelling name member again
        exact acyclic visit visited name again (cycle_of_visits visited member again).transGen
  · intro definitions agrees
    rw [compile, compile, expand_congr agrees]
  · intro names failed
    rcases errors _ failed with ⟨defect, impossible, -⟩ | ⟨visit, visited, found⟩
    · cases impossible
    · rcases found with ⟨spelling, name, member, again, rfl⟩
      exact cycle_of_visits visited member again

end LayerSpec

end KeyLayers
