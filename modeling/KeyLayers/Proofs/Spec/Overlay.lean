import KeyLayers.Proofs.Json.Record
import KeyLayers.Proofs.Outcome
import KeyLayers.Spec.Build

/-!
# Layers laid over others

The layers of a profile are those of all profiles with the profile's own laid over them.  Nothing
is said twice and nothing is moved: the keys of all profiles come first in their order, then those
that only the profile has, and at each key the profile is heard first.  Laying the same layers
over the result again changes nothing (`layerSpec_merges`).

A table is converted member by member (`Converts`), and what is converted is put into the mapping
in order (`Members.update`).  The rest is about members: an update is known by the names it leaves
and by the value it gives to each of them.
-/

namespace KeyLayers

/-! ## Updating members -/

namespace Members

variable {α : Type}

/-- Gives members the values of others in order: in place, or at the end. -/
def update (members overrides : Members α) : Members α :=
  overrides.foldl (fun members entry => members.put entry.1 entry.2) members

@[simp]
theorem update_nil (members : Members α) : members.update [] = members := rfl

@[simp]
theorem update_cons (members : Members α) (name : String) (value : α) (rest : Members α) :
    members.update ((name, value) :: rest) = (members.put name value).update rest := rfl

/-- An update leaves the names as they are and adds those that are new. -/
theorem names_update {members overrides : Members α} (distinct : overrides.names.Nodup) :
    (members.update overrides).names =
      members.names ++ overrides.names.filter (· ∉ members.names) := by
  induction overrides generalizing members with
  | nil => simp [names]
  | cons entry rest ih =>
      rcases entry with ⟨name, value⟩
      rcases List.nodup_cons.1 distinct with ⟨fresh, distinct⟩
      have split : names ((name, value) :: rest) = name :: names rest := rfl
      rw [update_cons, ih distinct, split, names_put]
      by_cases known : name ∈ members.names
      · rw [if_pos known, List.filter_cons_of_neg (by simpa using known)]
      · rw [if_neg known, List.filter_cons_of_pos (by simpa using known), List.append_assoc,
          List.singleton_append]
        -- the new name is none of the later ones, so that they are added as before
        have later : (names rest).filter (· ∉ members.names ++ [name]) =
            (names rest).filter (· ∉ members.names) := by
          apply List.filter_congr
          intro other among
          have differ : other ≠ name := ne_of_mem_of_not_mem among fresh
          simp [differ]
        rw [later]

theorem nodup_update {members overrides : Members α} (base : members.names.Nodup)
    (distinct : overrides.names.Nodup) : (members.update overrides).names.Nodup := by
  rw [names_update distinct]
  refine List.nodup_append.2 ⟨base, distinct.filter _, ?_⟩
  rintro name old other new rfl
  exact of_decide_eq_true (List.mem_filter.1 new).2 old

/-- At each name an update is heard first. -/
theorem get?_update {members overrides : Members α} (distinct : overrides.names.Nodup)
    (name : String) :
    (members.update overrides).get? name = (overrides.get? name).or (members.get? name) := by
  induction overrides generalizing members with
  | nil => simp
  | cons entry rest ih =>
      rcases entry with ⟨other, value⟩
      rcases List.nodup_cons.1 distinct with ⟨fresh, distinct⟩
      rw [update_cons, ih distinct]
      by_cases same : name = other
      · subst same
        rw [get?_eq_none fresh, get?_cons_self, get?_put_self]
        rfl
      · rw [get?_cons_other same, get?_put_other _ _ same]

/-- Members of distinct names are known by the names and by the value of each. -/
theorem eq_of_names_of_get? {left right : Members α} (distinct : left.names.Nodup)
    (names_eq : left.names = right.names) (get?_eq : ∀ name, left.get? name = right.get? name) :
    left = right := by
  induction left generalizing right with
  | nil =>
      cases right with
      | nil => rfl
      | cons => cases names_eq
  | cons entry rest ih =>
      rcases entry with ⟨name, value⟩
      cases right with
      | nil => cases names_eq
      | cons head others =>
          rcases head with ⟨other, given⟩
          obtain rfl : name = other := (List.cons.inj names_eq).1
          have others_eq : names rest = names others := (List.cons.inj names_eq).2
          rcases List.nodup_cons.1 distinct with ⟨fresh, distinct⟩
          have here := get?_eq name
          rw [get?_cons_self, get?_cons_self, Option.some.injEq] at here
          rw [here, ih distinct others_eq fun other => ?_]
          by_cases same : other = name
          · subst same
            rw [get?_eq_none fresh, get?_eq_none (others_eq ▸ fresh)]
          · have there := get?_eq other
            rwa [get?_cons_other same, get?_cons_other same] at there

/-- An update that has been made already changes nothing. -/
theorem update_update {members overrides : Members α} (base : members.names.Nodup)
    (distinct : overrides.names.Nodup) :
    (members.update overrides).update overrides = members.update overrides := by
  have known : ∀ name ∈ overrides.names, name ∈ (members.update overrides).names := by
    intro name among
    by_cases old : name ∈ members.names
    · simp [names_update distinct, old]
    · simp [names_update distinct, old, among]
  have same : ((members.update overrides).update overrides).names =
      (members.update overrides).names := by
    rw [names_update distinct, List.filter_eq_nil_iff.2 ?_, List.append_nil]
    intro name among
    simpa using known name among
  apply eq_of_names_of_get? _ same
  · intro name
    rw [get?_update distinct, get?_update distinct]
    cases overrides.get? name <;> rfl
  · rw [same]
    exact nodup_update base distinct

end Members

namespace Spec

/-! ## Converting a table -/

/-- Whether a mapping is a table converted member by member at a location. -/
def Converts (location : String) (members : Members Toml) (mapping : LayerMapping) : Prop :=
  List.Forall₂
    (fun member entry => entry.1 = member.1 ∧
      layerNode (within location member.1) member.2 = .ok entry.2)
    members mapping

theorem converts_of_layerMapping {location : String} {members : Members Toml}
    {mapping : LayerMapping} (read : layerMapping location members = .ok mapping) :
    Converts location members mapping := by
  induction members generalizing mapping with
  | nil =>
      rw [layerMapping] at read
      cases read
      exact .nil
  | cons member rest ih =>
      rcases member with ⟨key, value⟩
      simp only [layerMapping, bind_eq_ok_iff, pure_eq_ok_iff] at read
      rcases read with ⟨node, first, others, later, rfl⟩
      exact .cons ⟨rfl, first⟩ (ih later)

/-- Laying a table over a mapping is updating the mapping with the converted table. -/
theorem overlay_eq_ok_iff {location : String} {mapping result : LayerMapping}
    {members : Members Toml} :
    overlay location mapping members = .ok result ↔
      ∃ nodes, Converts location members nodes ∧ mapping.update nodes = result := by
  induction members generalizing mapping with
  | nil =>
      rw [overlay, Except.ok.injEq]
      constructor
      · rintro rfl
        exact ⟨[], .nil, rfl⟩
      · rintro ⟨nodes, converts, rfl⟩
        cases converts
        rfl
  | cons member rest ih =>
      rcases member with ⟨key, value⟩
      simp only [overlay, bind_eq_ok_iff, ih]
      constructor
      · rintro ⟨node, first, nodes, later, rfl⟩
        exact ⟨(key, node) :: nodes, .cons ⟨rfl, first⟩ later, rfl⟩
      · rintro ⟨nodes, converts, rfl⟩
        cases converts with
        | cons first later =>
            rcases first with ⟨rfl, first⟩
            exact ⟨_, first, _, later, rfl⟩

theorem Converts.names_eq {location : String} {members : Members Toml} {mapping : LayerMapping}
    (converts : Converts location members mapping) : mapping.names = members.names := by
  induction converts with
  | nil => rfl
  | cons first _ ih => exact congrArg₂ List.cons first.1 ih

/-- A key is given what its value is converted to. -/
theorem Converts.get? {location : String} {members : Members Toml} {mapping : LayerMapping}
    (converts : Converts location members mapping) {key : String} {value : Toml}
    (found : members.get? key = some value) :
    ∃ node, layerNode (within location key) value = .ok node ∧ mapping.get? key = some node := by
  induction converts with
  | nil => cases found
  | @cons member entry rest others first _ ih =>
      rcases member with ⟨name, first⟩
      rcases entry with ⟨other, node⟩
      obtain ⟨rfl, read⟩ := first
      by_cases same : key = other
      · subst same
        rw [Members.get?_cons_self] at found
        cases found
        exact ⟨node, read, Members.get?_cons_self ..⟩
      · rw [Members.get?_cons_other same] at found
        rw [Members.get?_cons_other same]
        exact ih found

/-! ## The layers of a profile -/

theorem root_of_addDefinitions {members : Members Toml} {layers result : LayerSpec}
    (read : addDefinitions layers members = .ok result) : result.root = layers.root := by
  induction members generalizing layers with
  | nil =>
      cases read
      rfl
  | cons member rest ih =>
      rcases member with ⟨name, value⟩
      cases value with
      | table inner =>
          simp only [addDefinitions, bind_eq_ok_iff] at read
          rcases read with ⟨mapping, -, later⟩
          have kept := ih later
          exact kept
      | _ => simp [addDefinitions] at read

/-- Whether a root is what the layers of all profiles and those of one profile say together. -/
structure Merges (spec : Spec) (profile : ProfileSection) (root : LayerMapping) : Prop where
  /-- The keys of all profiles come first, then those that only the profile has. -/
  names_eq : root.names =
    spec.layers.names ++ profile.layers.names.filter (· ∉ spec.layers.names)
  nodup : root.names.Nodup
  /-- A key of the profile has what the profile says. -/
  own : ∀ key value, profile.layers.get? key = some value →
    ∃ node, layerNode (within ("profiles." ++ profile.name ++ ".layers") key) value = .ok node ∧
      root.get? key = some node
  /-- Any other key has what all profiles have. -/
  shared : ∀ key value, profile.layers.get? key = none → spec.layers.get? key = some value →
    ∃ node, layerNode (within "layers" key) value = .ok node ∧ root.get? key = some node
  /-- Laying the layers of the profile over the root once more changes nothing. -/
  again : overlay ("profiles." ++ profile.name ++ ".layers") root profile.layers = .ok root

/-- The layers of a profile are those of all profiles, updated with its own. -/
theorem layerSpec_merges {spec : Spec} {profile : ProfileSection} {layers : LayerSpec}
    (base : spec.layers.names.Nodup) (distinct : profile.layers.names.Nodup)
    (read : spec.layerSpec profile = .ok layers) : Merges spec profile layers.root := by
  simp only [layerSpec, bind_eq_ok_iff] at read
  rcases read with ⟨mapping, first, root, laid, added⟩
  have shared := converts_of_layerMapping first
  rcases overlay_eq_ok_iff.1 laid with ⟨nodes, own, rfl⟩
  have sharedNames : mapping.names.Nodup := shared.names_eq ▸ base
  have ownNames : nodes.names.Nodup := own.names_eq ▸ distinct
  rw [root_of_addDefinitions added]
  refine ⟨?_, Members.nodup_update sharedNames ownNames, ?_, ?_, ?_⟩
  · rw [Members.names_update ownNames, shared.names_eq, own.names_eq]
  · intro key value found
    rcases own.get? found with ⟨node, read, known⟩
    refine ⟨node, read, ?_⟩
    rw [Members.get?_update ownNames, known]
    rfl
  · intro key value absent found
    rcases shared.get? found with ⟨node, read, known⟩
    refine ⟨node, read, ?_⟩
    have missing : nodes.get? key = none := by
      rw [Members.get?_eq_none_iff] at absent ⊢
      rwa [own.names_eq]
    rw [Members.get?_update ownNames, missing, known]
    rfl
  · exact overlay_eq_ok_iff.2 ⟨nodes, own, Members.update_update sharedNames ownNames⟩

namespace Sample

/-- A profile that replaces one of two layers and has one of its own. -/
def work : ProfileSection where
  name := "Work"
  layers := [("c", .str "layer:tools"), ("b", .str "app:Calendar")]

def shared : Spec where
  layers := [("b", .str "app:Mail"), ("a", .str "app:Notes")]
  definitions := [("tools", .table [("d", .str "shell:date")])]
  profiles := [work]

def workLayers : LayerSpec where
  root :=
    [ ("b", .action (.launchApp "Calendar")), ("a", .action (.launchApp "Notes")),
      ("c", .reference "tools") ]
  definitions := [("tools", [("d", .action (.runShell "date"))])]

theorem workLayers_merged :
    shared.layerSpec work = .ok workLayers ∧ Merges shared work workLayers.root ∧
      workLayers.root.names = ["b", "a", "c"] := by
  have read : shared.layerSpec work = .ok workLayers := by rfl
  exact ⟨read, layerSpec_merges (by decide) (by decide) read, rfl⟩

end Sample

end Spec

end KeyLayers
