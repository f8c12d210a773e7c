import KeyLayers.Proofs.Layer.Expansion

/-!
# Every error names a defect

`CompileError.FoundAt` says what each error claims about a mapping that is
visited.  An error of an expansion is never a false alarm: on the way from the
root there is a mapping of which it is true (`defect_of_expand`).
-/

namespace KeyLayers

theorem Key.name_of_parse_error {spelling : String} {failure : NameError}
    (failed : Key.parse spelling = .error failure) : failure.name = spelling := by
  unfold Key.parse at failed
  split at failed
  · cases failed
  · cases failed
    rfl

/-- What an error says about a mapping that is visited. -/
def CompileError.FoundAt (definitions : Members LayerMapping) (visit : Visit) :
    CompileError → Prop
  | .unknownKey spelling path =>
      path = visit.path ∧ spelling ∈ visit.entries.map Prod.fst ∧
        ∀ key, Key.parse spelling ≠ .ok key
  | .duplicateKey spelling first path =>
      path = visit.path ∧ [first, spelling].Sublist (visit.entries.map Prod.fst) ∧
        ∃ key, Key.parse first = .ok key ∧ Key.parse spelling = .ok key
  | .emptyLayer path => path = visit.path ∧ path ≠ .root ∧ visit.entries = []
  | .cyclicReference names =>
      ∃ spelling name, (spelling, .reference name) ∈ visit.entries ∧
        name ∈ visit.expanding ∧
          names = visit.expanding.dropWhile (· != name) ++ [name]
  | .unknownReference name path =>
      ∃ spelling key, (spelling, .reference name) ∈ visit.entries ∧
        Key.parse spelling = .ok key ∧ path = visit.path.child key ∧
          definitions.get? name = none
  | .invalidBinding spelling path defect =>
      path = visit.path ∧ ∃ node, (spelling, node) ∈ visit.entries ∧
        node.check = .error defect
  | .invalidOptions _ => False

/-- What an error says is true of a mapping that a visit leads to. -/
def Visit.Leads (definitions : Members LayerMapping) (visit : Visit)
    (error : CompileError) : Prop :=
  ∃ last, visit.Reaches definitions last ∧ error.FoundAt definitions last

namespace LayerSpec

variable {definitions : Members LayerMapping} {visit : Visit} {error : CompileError}

theorem leads_of_enters {next : Visit} (step : visit.Enters definitions next)
    (further : next.Leads definitions error) : visit.Leads definitions error := by
  rcases further with ⟨last, steps, here⟩
  exact ⟨last, .head step steps, here⟩

/-! ## One mapping -/

theorem checkReference_eq_error {path : LeaderPath} {node : LayerNode}
    (failed : checkReference definitions path node = .error error) :
    ∃ name, node = .reference name ∧ definitions.get? name = none ∧
      error = .unknownReference name path := by
  cases node with
  | reference name =>
      rw [checkReference] at failed
      split at failed
      · cases failed
      · next missing =>
          cases failed
          exact ⟨name, rfl, by simpa using missing, rfl⟩
  | action action => cases failed
  | raw binding => cases failed
  | layer entries => cases failed

/-- The claims of the entries seen so far say which key was taken, and by whom. -/
theorem found_of_resolveKeys {claims : Claims} {before rest : LayerMapping}
    (entries : visit.entries = before ++ rest)
    (seen : ∀ claim ∈ claims,
      claim.2 ∈ before.map Prod.fst ∧ Key.parse claim.2 = .ok claim.1)
    (failed : resolveKeys definitions visit.path claims rest = .error error) :
    error.FoundAt definitions visit := by
  induction rest generalizing claims before with
  | nil => cases failed
  | cons entry rest ih =>
      rcases entry with ⟨spelling, node⟩
      have here : (spelling, node) ∈ visit.entries := by
        rw [entries]
        exact List.mem_append_right _ (.head _)
      simp only [resolveKeys, bind_eq_error_iff, mapError_eq_error_iff, mapError_eq_ok_iff,
        Claims.add_eq_error_iff, Claims.add_eq_ok_iff] at failed
      rcases failed with ⟨failure, unparsed, rfl⟩ | ⟨key, parsed, failed⟩
      · refine ⟨rfl, ?_, ?_⟩
        · rw [Key.name_of_parse_error unparsed]
          exact List.mem_map_of_mem here
        · rw [Key.name_of_parse_error unparsed]
          intro key parsed
          rw [unparsed] at parsed
          cases parsed
      · -- a taken key was claimed by an earlier entry, whose spelling the claim keeps
        rcases failed with ⟨first, taken, rfl⟩ | ⟨added, ⟨free, rfl⟩, failed⟩
        · rcases seen _ (mem_of_lookup taken) with ⟨earlier, same⟩
          refine ⟨rfl, ?_, key, same, parsed⟩
          rw [entries, List.map_append]
          apply (List.singleton_sublist.2 earlier).append
          exact List.singleton_sublist.2 (.head _)
        · rcases failed with unknown | ⟨-, -, failed⟩
          · rcases checkReference_eq_error unknown with ⟨name, rfl, missing, rfl⟩
            exact ⟨spelling, key, here, parsed, rfl, missing⟩
          · have later : visit.entries = (before ++ [(spelling, node)]) ++ rest := by
              rw [entries, List.append_assoc, List.singleton_append]
            rcases failed with failed | ⟨keys, -, impossible⟩
            · apply ih later _ failed
              intro claim member
              rw [List.map_append]
              rcases List.mem_append.1 member with old | new
              · exact ⟨List.mem_append_left _ (seen claim old).1, (seen claim old).2⟩
              · rw [List.mem_singleton.1 new]
                exact ⟨List.mem_append_right _ (.head _), parsed⟩
            · cases impossible

theorem found_of_checkLeaves {rest : LayerMapping} (within : rest ⊆ visit.entries)
    (failed : checkLeaves visit.path rest = .error error) :
    error.FoundAt definitions visit := by
  induction rest with
  | nil => cases failed
  | cons entry rest ih =>
      rcases entry with ⟨spelling, node⟩
      simp only [checkLeaves, checkLeaf_eq, bind_eq_error_iff, mapError_eq_error_iff,
        mapError_eq_ok_iff] at failed
      rcases failed with ⟨defect, unsound, rfl⟩ | ⟨-, -, failed⟩
      · exact ⟨rfl, node, within (.head _), unsound⟩
      · exact ih (fun _ member => within (.tail _ member)) failed

/-! ## All mappings -/

/-- An error of a node, a layer or some entries is true of a mapping inside it. -/
theorem leads_of_expandNode (definitions : Members LayerMapping) :
    (∀ expanding path node error,
      expandNode definitions expanding path node = .error error →
        ∀ (visit : Visit) spelling key, visit.expanding = expanding →
          visit.path.child key = path → (spelling, node) ∈ visit.entries →
            Key.parse spelling = .ok key → visit.Leads definitions error) ∧
    (∀ expanding path entries error,
      expandLayer definitions expanding path entries = .error error → path ≠ .root →
        Visit.Leads definitions ⟨expanding, path, entries⟩ error) ∧
    (∀ expanding path keys rest error,
      expandEntries definitions expanding path keys rest = .error error →
        ∀ visit : Visit, visit.expanding = expanding → visit.path = path →
          rest ⊆ visit.entries →
            rest.map (fun entry => Key.parse entry.1) = keys.map .ok →
              visit.Leads definitions error) := by
  refine expandNode.mutual_induct definitions
    (fun expanding path node => ∀ error, _) (fun expanding path entries => ∀ error, _)
    (fun expanding path keys rest => ∀ error, _)
    ?action ?raw ?layer ?cycle ?unknown ?body ?empty ?badKeys ?badEntry ?badLeaf ?sound
    ?badFirst ?badRest ?both ?done
  case action =>
    intro expanding path action error failed
    simp [expandNode] at failed
  case raw =>
    intro expanding path binding error failed
    simp [expandNode] at failed
  case layer =>
    rintro expanding path entries ih error failed visit spelling key rfl rfl member parsed
    simp only [expandNode, map_eq_error_iff] at failed
    exact leads_of_enters (.layer member parsed)
      (ih error failed (LeaderPath.child_ne_root _ _))
  case cycle =>
    rintro expanding path name again error failed visit spelling key rfl rfl member parsed
    rw [expandNode_reference, if_pos again] at failed
    cases failed
    exact ⟨visit, .refl, spelling, name, member, again, rfl⟩
  case unknown =>
    rintro expanding path name fresh missing error failed visit spelling key rfl rfl member
      parsed
    simp only [expandNode_reference, if_neg fresh, missing] at failed
    cases failed
    exact ⟨visit, .refl, spelling, key, member, parsed, rfl, missing⟩
  case body =>
    rintro expanding path name fresh body found fewer ih error failed visit spelling key rfl
      rfl member parsed
    simp only [expandNode_reference, if_neg fresh, found, map_eq_error_iff] at failed
    exact leads_of_enters (.reference member parsed found)
      (ih error failed (LeaderPath.child_ne_root _ _))
  case empty =>
    intro expanding path entries none error failed inner
    simp only [expandLayer, none, if_true] at failed
    cases failed
    exact ⟨_, .refl, rfl, inner, List.isEmpty_iff.1 none⟩
  case badKeys =>
    intro expanding path entries some failure resolved error failed inner
    simp only [expandLayer, some, resolved] at failed
    cases failed
    exact ⟨_, .refl, found_of_resolveKeys (List.nil_append entries).symm (by simp) resolved⟩
  case badEntry =>
    intro expanding path entries some keys resolved failure expanded ih error failed inner
    simp only [expandLayer, some, resolved, expanded] at failed
    cases failed
    exact ih failure expanded ⟨expanding, path, entries⟩ rfl rfl (List.Subset.refl entries)
      (keys_of_resolveKeys resolved).1
  case badLeaf =>
    intro expanding path entries some keys resolved trees expanded failure checked ih error
      failed inner
    simp only [expandLayer, some, resolved, expanded, checked] at failed
    cases failed
    exact ⟨_, .refl, found_of_checkLeaves (List.Subset.refl entries) checked⟩
  case sound =>
    intro expanding path entries some keys resolved trees expanded checked ih error failed
    simp [expandLayer, some, resolved, expanded, checked] at failed
  case badFirst =>
    rintro expanding path key keys spelling node rest failure first ih error failed visit
      rfl rfl within parsed
    simp only [expandEntries, first] at failed
    cases failed
    exact ih failure first visit spelling key rfl rfl (within (.head _))
      (List.cons.inj parsed).1
  case badRest =>
    rintro expanding path key keys spelling node rest tree first failure others ih restIh
      error failed visit rfl rfl within parsed
    simp only [expandEntries, first, others] at failed
    cases failed
    exact restIh failure others visit rfl rfl (fun _ member => within (.tail _ member))
      (List.cons.inj parsed).2
  case both =>
    intro expanding path key keys spelling node rest tree first trees others ih restIh
      error failed
    simp [expandEntries, first, others] at failed
  case done =>
    intro expanding path keys rest ended error failed
    rw [expandEntries] at failed
    · cases failed
    · exact ended

/-- An error of the root's entries is true of a mapping inside it. -/
theorem leads_of_expandRoot {keys : List Key} {rest : LayerMapping}
    (outermost : visit.path = .root) (unentered : visit.expanding = [])
    (within : rest ⊆ visit.entries)
    (parsed : rest.map (fun entry => Key.parse entry.1) = keys.map .ok)
    (failed : expandRoot definitions keys rest = .error error) :
    visit.Leads definitions error := by
  induction rest generalizing keys with
  | nil =>
      cases keys <;> cases failed
  | cons entry rest ih =>
      rcases entry with ⟨spelling, node⟩
      cases keys with
      | nil => cases failed
      | cons key keys =>
          simp only [expandRoot, checkLeaf_eq, bind_eq_error_iff, mapError_eq_error_iff,
            mapError_eq_ok_iff] at failed
          rcases failed with ⟨defect, unsound, rfl⟩ | ⟨-, -, failed⟩
          · exact ⟨visit, .refl, outermost.symm, node, within (.head _), unsound⟩
          · rcases failed with failed | ⟨tree, -, failed⟩
            · exact (leads_of_expandNode definitions).1 _ _ _ _ failed visit spelling key
                unentered (by rw [outermost]) (within (.head _)) (List.cons.inj parsed).1
            · rcases failed with failed | ⟨trees, -, impossible⟩
              · exact ih (fun _ member => within (.tail _ member)) (List.cons.inj parsed).2
                  failed
              · cases impossible

/-- An error of an expansion is true of a mapping that is visited from the root. -/
theorem defect_of_expand {spec : LayerSpec} (failed : spec.expand = .error error) :
    ∃ visit, spec.Visits visit ∧ error.FoundAt spec.definitions visit := by
  simp only [expand, bind_eq_error_iff] at failed
  rcases failed with failed | ⟨keys, resolved, failed⟩
  · have here : error.FoundAt spec.definitions spec.start :=
      found_of_resolveKeys (List.nil_append spec.root).symm (by simp) failed
    exact ⟨spec.start, .refl, here⟩
  · have leads : spec.start.Leads spec.definitions error :=
      leads_of_expandRoot rfl rfl (List.Subset.refl spec.root)
        (keys_of_resolveKeys resolved).1 failed
    exact leads

end LayerSpec

end KeyLayers
