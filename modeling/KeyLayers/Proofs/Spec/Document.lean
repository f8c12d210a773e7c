import KeyLayers.Proofs.Layer.Expansion
import KeyLayers.Proofs.Spec.Layers
import KeyLayers.Proofs.Spec.Sections
import KeyLayers.Spec.Build

/-!
# The document of a spec file is read back

Whatever reaches a document comes from the settings and rules that are passed
through, from the raw events of a table of layers, or from the compilation,
which makes up events and conditions of its own.  All of these are read back.
-/

namespace KeyLayers

/-! ## Layers -/

/-- Whether all raw events in a node are read back. -/
inductive LayerNode.IsRegular : LayerNode → Prop where
  | action (action : Action) : IsRegular (.action action)
  | raw {binding : RawBinding} (events : ∀ event ∈ binding.events, event.IsFaithful) :
      IsRegular (.raw binding)
  | layer {entries : List (String × LayerNode)}
      (each : ∀ entry ∈ entries, IsRegular entry.2) : IsRegular (.layer entries)
  | reference (name : String) : IsRegular (.reference name)

/-- Whether all raw events in a mapping are read back. -/
def LayerMapping.IsRegular (mapping : LayerMapping) : Prop :=
  ∀ entry ∈ mapping, entry.2.IsRegular

/-- Whether all raw events in a specification are read back. -/
structure LayerSpec.IsRegular (spec : LayerSpec) : Prop where
  root : spec.root.IsRegular
  definitions : ∀ definition ∈ spec.definitions, LayerMapping.IsRegular definition.2

namespace Notation

theorem regular_of_leafNode {kind : LeafKind} {argument : String} {node : LayerNode}
    (found : leafNode kind argument = .ok node) : node.IsRegular := by
  cases kind with
  | app | openTarget | shell =>
      simp only [leafNode, Except.ok.injEq] at found
      exact found ▸ .action _
  | key | input =>
      simp only [leafNode, map_eq_ok_iff] at found
      obtain ⟨parsed, -, rfl⟩ := found
      exact .action _
  | layer =>
      simp only [leafNode, Except.ok.injEq] at found
      exact found ▸ .reference _

theorem regular_of_parseLeaf {input : String} {node : LayerNode}
    (found : parseLeaf input = .ok node) : node.IsRegular := by
  simp only [parseLeaf, bind_eq_ok_iff] at found
  obtain ⟨⟨kind, argument⟩, -, found⟩ := found
  exact regular_of_leafNode found

end Notation

namespace Spec

open Toml (SoundLayers)

theorem faithful_of_rawBinding {location : String} {members : List (String × Toml)}
    {result : RawBinding} (distinct : (Members.names members).Nodup)
    (sound : SoundLayers members) (listed : "to" ∈ Members.names members)
    (found : rawBinding location ⟨[], none⟩ members = .ok result) :
    ∀ event ∈ result.events, event.IsFaithful := by
  rcases (gathers_of_rawBinding distinct found).exists_items listed with ⟨items, among, events⟩
  obtain ⟨arrays, plain⟩ := sound _ among
  rw [events]
  intro event member
  obtain ⟨item, among, rfl⟩ := List.mem_map.1 member
  apply Event.faithful_ofJson
  exact Toml.printable_of_isPlain (Toml.sound_array_iff.1 arrays item among)
    (Toml.allItemInts_iff.1 plain item among)

theorem regular_of_layerMapping {location : String} {members : List (String × Toml)}
    {mapping : LayerMapping}
    (each : ∀ entry ∈ members, ∀ location node,
      layerNode location entry.2 = .ok node → node.IsRegular)
    (found : layerMapping location members = .ok mapping) : mapping.IsRegular := by
  induction members generalizing mapping with
  | nil =>
      rw [layerMapping] at found
      cases found
      intro entry member
      cases member
  | cons entry rest ih =>
      obtain ⟨key, value⟩ := entry
      simp only [layerMapping, bind_eq_ok_iff, pure_eq_ok_iff] at found
      obtain ⟨node, first, others, later, rfl⟩ := found
      have tail := ih (fun entry member => each entry (List.mem_cons_of_mem _ member)) later
      exact List.forall_mem_cons.2 ⟨each _ List.mem_cons_self _ node first, tail⟩

theorem regular_of_layerNode {value : Toml} (sound : value.Sound) (plain : value.isPlain = true)
    {location : String} {node : LayerNode} (found : layerNode location value = .ok node) :
    node.IsRegular := by
  have distinct := sound.distinct
  induction distinct generalizing location node with
  | str text =>
      rw [layerNode, mapError_eq_ok_iff] at found
      exact Notation.regular_of_parseLeaf found
  | table distinct each ih =>
      have parts : SoundLayers _ := fun entry member =>
        ⟨(Toml.sound_table_iff.1 sound).each entry member,
          Toml.allMemberInts_iff.1 plain entry member⟩
      rw [layerNode_table] at found
      split at found
      next listed =>
        obtain ⟨binding, read, rfl⟩ := map_eq_ok_iff.1 found
        exact .raw (faithful_of_rawBinding distinct parts listed read)
      next =>
        obtain ⟨mapping, read, rfl⟩ := map_eq_ok_iff.1 found
        refine .layer (regular_of_layerMapping ?_ read)
        intro entry member location node read
        exact ih entry member (parts entry member).1 (parts entry member).2 read
  | _ => simp [layerNode] at found

theorem regular_of_layers {location : String} {entries : Members Toml} {mapping : LayerMapping}
    (sound : SoundLayers entries) (found : layerMapping location entries = .ok mapping) :
    mapping.IsRegular :=
  regular_of_layerMapping (fun entry member _ _ read =>
    regular_of_layerNode (sound entry member).1 (sound entry member).2 read) found

theorem regular_of_overlay {location : String} {entries : Members Toml}
    {mapping result : LayerMapping} (sound : SoundLayers entries) (regular : mapping.IsRegular)
    (found : overlay location mapping entries = .ok result) : result.IsRegular := by
  induction entries generalizing mapping with
  | nil =>
      cases found
      exact regular
  | cons entry rest ih =>
      obtain ⟨key, value⟩ := entry
      simp only [overlay, bind_eq_ok_iff] at found
      obtain ⟨node, first, later⟩ := found
      have here := sound _ List.mem_cons_self
      have inner := regular_of_layerNode here.1 here.2 first
      refine ih (fun entry member => sound entry (List.mem_cons_of_mem _ member)) ?_ later
      intro other member
      rcases Members.mem_put member with rfl | old
      · exact inner
      · exact regular other old

theorem regular_of_addDefinitions {entries : Members Toml} {spec result : LayerSpec}
    (sound : SoundLayers entries) (regular : spec.IsRegular)
    (found : addDefinitions spec entries = .ok result) : result.IsRegular := by
  induction entries generalizing spec with
  | nil =>
      cases found
      exact regular
  | cons entry rest ih =>
      obtain ⟨name, value⟩ := entry
      have here := sound _ List.mem_cons_self
      cases value with
      | table members =>
          simp only [addDefinitions, bind_eq_ok_iff] at found
          obtain ⟨body, read, later⟩ := found
          have inner : LayerMapping.IsRegular body := by
            apply regular_of_layers _ read
            exact fun entry member => ⟨(Toml.sound_table_iff.1 here.1).each entry member,
              Toml.allMemberInts_iff.1 here.2 entry member⟩
          have more : (spec.define name body).IsRegular := by
            refine ⟨regular.root, ?_⟩
            intro other member
            rcases Members.mem_put member with rfl | old
            · exact inner
            · exact regular.definitions other old
          exact ih (fun entry member => sound entry (List.mem_cons_of_mem _ member)) more later
      | _ => simp [addDefinitions] at found

theorem regular_of_layerSpec {spec : Spec} (sound : spec.Sound) {profile : ProfileSection}
    (layers : SoundLayers profile.layers) {result : LayerSpec}
    (found : spec.layerSpec profile = .ok result) : result.IsRegular := by
  simp only [layerSpec, bind_eq_ok_iff] at found
  obtain ⟨base, first, root, laid, added⟩ := found
  have regular := regular_of_overlay layers (regular_of_layers sound.layers first) laid
  refine regular_of_addDefinitions sound.definitions ⟨regular, ?_⟩ added
  intro definition member
  cases member

end Spec

/-! ## Expansion -/

/-- Whether all events of the leaves of a tree are read back. -/
inductive Tree.IsRegular : Tree → Prop where
  | leaf {leaf : Leaf} (events : ∀ event ∈ leaf.events, event.IsFaithful) :
      IsRegular (.leaf leaf)
  | layer {entries : List (Key × Tree)} (each : ∀ entry ∈ entries, IsRegular entry.2) :
      IsRegular (.layer entries)

/-- Whether all events of the leaves among some entries are read back. -/
def TreeEntries.IsRegular (entries : TreeEntries) : Prop :=
  ∀ entry ∈ entries, entry.2.IsRegular

namespace LayerSpec

/-- Entries that are paired with regular nodes, each expanding to a regular tree. -/
theorem regular_of_pairs {entries : LayerMapping} {trees : TreeEntries}
    (lengths : entries.length = trees.length) (regular : entries.IsRegular)
    (inner : ∀ pair ∈ entries.zip trees, pair.1.2.IsRegular → pair.2.2.IsRegular) :
    trees.IsRegular := by
  intro tree member
  obtain ⟨index, bound, rfl⟩ := List.getElem_of_mem member
  have within : index < entries.length := lengths ▸ bound
  have pair : (entries[index], trees[index]) ∈ entries.zip trees := by
    have both : index < (entries.zip trees).length := by
      rw [List.length_zip]
      omega
    exact List.mem_iff_getElem.2 ⟨index, both, List.getElem_zip⟩
  exact inner _ pair (regular _ (List.getElem_mem within))

theorem regular_of_expands {definitions : Members LayerMapping}
    (bodies : ∀ definition ∈ definitions, LayerMapping.IsRegular definition.2)
    {expanding : List String} {node : LayerNode} {tree : Tree}
    (expands : Expands definitions expanding node tree) (regular : node.IsRegular) :
    tree.IsRegular := by
  induction expands with
  | action action => exact .leaf action.faithful_encode
  | raw binding =>
      cases regular with
      | raw events => exact .leaf events
  | layer nonempty resolved unique checked inner ih =>
      cases regular with
      | layer each =>
          have lengths := by simpa using congrArg List.length resolved
          exact .layer (regular_of_pairs lengths each ih)
  | reference found fresh inside ih =>
      exact ih (.layer (bodies _ (Members.mem_of_get? found)))

theorem regular_of_expand {spec : LayerSpec} (regular : spec.IsRegular) {tree : TreeEntries}
    (expanded : spec.expand = .ok tree) : tree.IsRegular := by
  have expansion := expansion_of_expand expanded
  exact regular_of_pairs expansion.length_eq regular.root fun pair member =>
    regular_of_expands regular.definitions (expansion.inner pair member)

end LayerSpec

/-! ## Compilation -/

namespace CompileOptions

/-- Whether the values in the conditions of the options fit into signed words. -/
structure IsRegular (options : CompileOptions) : Prop where
  root : ∀ condition ∈ options.rootConditions, condition.Signed
  context : ∀ condition ∈ options.contextConditions, condition.Signed

variable {options : CompileOptions} (regular : options.IsRegular)

theorem signed_exclusions (path : LeaderPath) (keys : List Key) :
    ∀ condition ∈ options.exclusions path keys, condition.Signed := by
  intro condition member
  obtain ⟨key, -, rfl⟩ := List.mem_map.1 member
  exact (by decide : Word.isSigned 0 = true)

include regular

theorem signed_gate (path : LeaderPath) :
    ∀ condition ∈ options.gate path, condition.Signed := by
  intro condition member
  unfold gate at member
  split at member
  next => exact regular.root condition member
  next =>
    obtain ⟨layer, -, rfl⟩ := List.mem_map.1 member
    exact (by decide : Word.isSigned 1 = true)

theorem regular_activation (path : LeaderPath) (layers : List Key) (key : Key) :
    (options.activation path layers key).IsRegular where
  events := by
    intro event member
    simp only [Manipulator.events, activation, List.mem_append, List.mem_singleton] at member
    rcases member with (rfl | rfl) | rfl
    · exact Event.faithful_set _ (by decide)
    · exact Event.faithful_chord key []
    · exact Event.faithful_set _ (by decide)
  conditions := by
    intro condition member
    simp only [activation, activationConditions, List.mem_append] at member
    rcases member with (gate | beside) | context
    · exact signed_gate regular path condition gate
    · exact signed_exclusions path _ condition beside
    · exact regular.context condition context
  extra := Json.extra_nil _

theorem regular_dispatch (path : LeaderPath) (layers : List Key) (key : Key) {leaf : Leaf}
    (events : ∀ event ∈ leaf.events, event.IsFaithful) :
    (options.dispatch path layers key leaf).IsRegular where
  events := by simpa [Manipulator.events, dispatch] using events
  conditions := by
    intro condition member
    simp only [dispatch, leafConditions, List.mem_append] at member
    rcases member with (gate | beside) | context
    · exact signed_gate regular path condition gate
    · split at beside
      next => exact signed_exclusions path _ condition beside
      next => cases beside
    · exact regular.context condition context
  extra := Json.extra_nil _

theorem regular_dispatches (path : LeaderPath) (layers : List Key) {entries : TreeEntries}
    (sound : entries.IsRegular) :
    ∀ manipulator ∈ options.dispatches path layers entries, manipulator.IsRegular := by
  intro manipulator member
  obtain ⟨⟨key, tree⟩, among, made⟩ := List.mem_filterMap.1 member
  cases tree with
  | leaf leaf =>
      cases made
      cases sound _ among with
      | leaf events => exact regular_dispatch regular path layers key events
  | layer entries => cases made

omit regular in
theorem regular_nested (path : LeaderPath) (layers : List Key) {entries : List (Key × Tree)}
    (each : ∀ entry ∈ entries, ∀ path layers key,
      ∀ manipulator ∈ options.manipulators path layers key entry.2, manipulator.IsRegular) :
    ∀ manipulator ∈ options.nested path layers entries, manipulator.IsRegular := by
  induction entries with
  | nil => simp [nested]
  | cons entry rest ih =>
      obtain ⟨key, tree⟩ := entry
      have later := ih fun entry member => each entry (List.mem_cons_of_mem _ member)
      cases tree with
      | leaf leaf => exact later
      | layer entries =>
          intro manipulator member
          rw [nested] at member
          rcases List.mem_append.1 member with first | others
          · exact each _ List.mem_cons_self path layers key manipulator first
          · exact later manipulator others

theorem regular_manipulators {tree : Tree} (sound : tree.IsRegular) (path : LeaderPath)
    (layers : List Key) (key : Key) :
    ∀ manipulator ∈ options.manipulators path layers key tree, manipulator.IsRegular := by
  induction sound generalizing path layers key with
  | leaf events =>
      rw [manipulators]
      exact List.forall_mem_singleton.2 (regular_dispatch regular path layers key events)
  | layer each ih =>
      intro manipulator member
      simp only [manipulators, List.cons_append, List.mem_cons, List.mem_append] at member
      rcases member with rfl | nested | leaves
      · exact regular_activation regular path layers key
      · exact regular_nested _ _ ih manipulator nested
      · exact regular_dispatches regular _ _ each manipulator leaves

/-- The rules that a regular tree is compiled to are read back. -/
theorem regular_rules {tree : TreeEntries} (sound : tree.IsRegular) (label : String) :
    ∀ block ∈ (options.compileTree tree).blocks, (block.rule label).IsRegular := by
  intro block member manipulator among
  obtain ⟨⟨key, inner⟩, entry, rfl⟩ := List.mem_map.1 member
  exact regular_manipulators regular (sound _ entry) .root _ key manipulator among

end CompileOptions

theorem HyperKey.regular_rule (label : String) (hyper : HyperKey) :
    (hyper.rule label).IsRegular := by
  intro manipulator member
  cases List.mem_singleton.1 member
  refine ⟨?_, by simp [manipulator], Json.extra_nil _⟩
  intro event member
  simp only [Manipulator.events, HyperKey.manipulator, List.mem_append, List.mem_cons,
    List.mem_map, List.not_mem_nil, or_false] at member
  rcases member with ((rfl | ⟨name, -, rfl⟩) | rfl) | rfl
  · exact Event.faithful_set _ (by decide)
  · exact Event.faithful_set name (by decide)
  · exact Event.faithful_chord hyper.key []
  · exact Event.faithful_set _ (by decide)

/-! ## The whole document -/

namespace Spec

theorem regular_options {spec : Spec} {options : CompileOptions}
    (found : spec.options = .ok options) : options.IsRegular := by
  have context : ∀ apps : List String,
      ∀ condition ∈ if apps.isEmpty then [] else [Condition.frontmostUnless apps],
        condition.Signed := by
    intro apps condition member
    split at member
    next => cases member
    next =>
      cases List.mem_singleton.1 member
      exact (by decide : Word.isSigned 0 = true)
  unfold Spec.options at found
  simp only at found
  split at found
  next =>
    cases found
    exact ⟨by simp, context _⟩
  next hyper =>
    split at found
    next => cases found
    next =>
      cases found
      refine ⟨?_, context _⟩
      intro condition member
      cases List.mem_singleton.1 member
      exact (by decide : Word.isSigned 1 = true)

theorem regular_of_buildProfile {spec : Spec} (sound : spec.Sound) {options : CompileOptions}
    (regular : options.IsRegular) {hyper : Option HyperKey} {section' : ProfileSection}
    (layers : Toml.SoundLayers section'.layers) {profile : Profile}
    (built : spec.buildProfile options hyper section' = .ok profile) : profile.IsRegular := by
  simp only [buildProfile, bind_eq_ok_iff, pure_eq_ok_iff, mapError_eq_ok_iff] at built
  obtain ⟨layerSpec, read, first, led, compilation, compiled, rfl⟩ := built
  obtain ⟨-, tree, expanded, rfl⟩ := LayerSpec.compile_eq_ok_iff.1 compiled
  have entries := LayerSpec.regular_of_expand (regular_of_layerSpec sound layers read) expanded
  intro rule member
  simp only [List.mem_append, List.mem_map] at member
  rcases member with (lead | passed) | ⟨block, among, rfl⟩
  · cases hyper with
    | none =>
        cases led
        cases lead
    | some hyper =>
        obtain ⟨⟨⟩, -, rfl⟩ := map_eq_ok_iff.1 led
        rw [List.mem_singleton] at lead
        exact lead ▸ hyper.regular_rule options.label
  · exact sound.rules rule passed
  · exact CompileOptions.regular_rules regular entries options.label block among

/-- The document of a sound spec file is one that is read back. -/
theorem regular_of_document {spec : Spec} (sound : spec.Sound) {document : Document}
    (built : spec.document = .ok document) : document.IsRegular := by
  simp only [Spec.document, bind_eq_ok_iff, pure_eq_ok_iff] at built
  obtain ⟨options, chosen, hyper, -, profiles, made, rfl⟩ := built
  refine ⟨sound.global, ?_⟩
  intro profile member
  obtain ⟨section', among, built⟩ := exists_of_mapM made member
  refine regular_of_buildProfile sound (regular_options chosen) ?_ built
  unfold allProfiles at among
  split at among
  next =>
    cases List.mem_singleton.1 among
    intro entry member
    cases member
  next => exact sound.profiles section' among

/--
The document of a spec file is read back from its text as the same document,
which is written again as the same text.  The floating-point numbers of the file
have to be read back themselves, and a document that is nested more deeply than
a reader follows it is refused.
-/
theorem document_reads_back
    {text : String}
    {spec : Spec}
    {document : Document}
    (read : ofText text = .ok spec)
    (built : spec.document = .ok document)
    (reads : ∀ number ∈ floatsOf text, number.ReadsBack) :
    (document.toJson.depth ≤ Json.greatestDepth →
      ∃ again, Document.ofText document.text = .ok again ∧
        again = document ∧ again.text = document.text) ∧
    (Json.greatestDepth < document.toJson.depth →
      Document.ofText document.text = .error .syntaxError) := by
  have regular := regular_of_document (sound_of_ofText read reads) built
  have outcome := Document.ofText_text regular
  constructor
  · intro shallow
    rw [if_pos shallow] at outcome
    exact ⟨document, outcome, rfl, rfl⟩
  · intro deep
    rwa [if_neg (Nat.not_le.2 deep)] at outcome

end Spec

/-! ## Two documents -/

namespace Sample

def share : Binary64 := .zero false

def sharedKey : HyperKey := ⟨⟨"f18", by decide⟩, "hyper", []⟩

def shareText : String := "[global]\nshare = 0.0\n[hyper]\nkey = \"f18\"\n"

def shareSpec : Spec where
  global := [("share", .float share)]
  hyper := some { key := "f18" }

def shareDocument : Document where
  global := [("share", .float share)]
  profiles := [⟨"Default", some true, [sharedKey.rule "Hyper"]⟩]

theorem ofText_share : Spec.ofText shareText = .ok shareSpec := by
  have read : Toml.statements? shareText.toList =
      some [.header ["global"], .assign ["share"] (.float share), .header ["hyper"],
        .assign ["key"] (.str "f18")] := by with_unfolding_all rfl
  exact Spec.ofText_of_statements read (by decide) rfl

theorem document_share : shareSpec.document = .ok shareDocument := by decide +kernel

theorem reads_share : ∀ number ∈ Spec.floatsOf shareText, number.ReadsBack := by
  have floats : Spec.floatsOf shareText = [share] := by decide +kernel
  have reads : Json.ofText? (String.ofList (Json.writeFloat share)) = some (.float share) := by
    decide +kernel
  rw [floats]
  exact List.forall_mem_singleton.2 reads

theorem shareDocument_reads_back :
    Spec.ofText shareText = .ok shareSpec ∧ shareSpec.document = .ok shareDocument ∧
      (∀ number ∈ Spec.floatsOf shareText, number.ReadsBack) ∧
      ∃ again, Document.ofText shareDocument.text = .ok again ∧
        again = shareDocument ∧ again.text = shareDocument.text := by
  have shallow : shareDocument.toJson.depth ≤ Json.greatestDepth := by decide +kernel
  exact ⟨ofText_share, document_share, reads_share,
    (Spec.document_reads_back ofText_share document_share reads_share).1 shallow⟩

/-- The number one inside as many tables, each with the one member `a`. -/
def nested : Nat → Toml
  | 0 => .int 1
  | levels + 1 => .table [("a", nested levels)]

/-- A header and a key of 65 parts each. -/
def deepText : String :=
  let parts := (List.replicate 64 ['.', 'a']).flatten
  String.ofList ("[global".toList ++ parts ++ "]\na".toList ++ parts ++ " = 1\n".toList)

def deepSpec : Spec where
  global := [("a", (nested 128).toJson)]

def deepDocument : Document where
  global := [("a", (nested 128).toJson)]
  profiles := [⟨"Default", some true, []⟩]

section

open Toml

/-- A key goes on behind a dot. -/
theorem key?_dot {text rest left : List Char} {part : String} {path : List String}
    (first : keyPart? (skipSpaces text) = some (part, '.' :: rest))
    (shorter : rest.length < text.length) (others : key? rest = some (path, left)) :
    key? text = some (part :: path, left) := by
  have dot : skipSpaces ('.' :: rest) = '.' :: rest := rfl
  rw [key?]
  simp only [first, dot, shorter, others, Option.bind_eq_bind, Option.bind_some, if_true]
  rfl

/-- A dot and the letter `a`, some times. -/
def dotted (count : Nat) : List Char :=
  (List.replicate count ['.', 'a']).flatten

theorem length_dotted_succ (count : Nat) :
    (dotted (count + 1)).length = (dotted count).length + 2 := by
  rw [dotted, dotted, List.replicate_succ, List.flatten_cons, List.length_append]
  exact Nat.add_comm ..

/-- A key with one letter in each part is read to where its last part ends. -/
theorem key?_dotted {text left : List Char} (last : key? ('a' :: text) = some (["a"], left))
    (count : Nat) :
    key? ('a' :: (dotted count ++ text)) = some (List.replicate (count + 1) "a", left) := by
  induction count with
  | zero => exact last
  | succ count ih =>
      have shorter : ('a' :: (dotted count ++ text)).length <
          ('a' :: (dotted (count + 1) ++ text)).length := by
        simp only [List.length_cons, List.length_append, length_dotted_succ]
        omega
      exact key?_dot rfl shorter ih

/-- A statement at the beginning of a line is read, and then those of the other lines. -/
theorem statements?_of_statement {first : Char} {text left rest : List Char}
    {statement : Statement} {others : List Statement}
    (gap : skipGap? (first :: text) = some (first :: text))
    (read : statement? (first :: text) = some (statement, left))
    (ended : endLine? left = some rest) (shorter : rest.length < (first :: text).length)
    (more : statements? rest = some others) :
    statements? (first :: text) = some (statement :: others) := by
  rw [statements?, gap]
  simp only [Option.bind_some, read, Option.bind_eq_bind, ended, shorter, if_true, more]
  rfl

theorem statements?_assignment (count : Nat) :
    statements? ('a' :: (dotted count ++ " = 1\n".toList)) =
      some [.assign (List.replicate (count + 1) "a") (.int 1)] := by
  have last : key? ('a' :: " = 1\n".toList) = some (["a"], "= 1\n".toList) := by decide +kernel
  have path := key?_dotted last count
  have value : readValue? [] .value ['1', '\n'] = some (.int 1, ['\n']) := by
    with_unfolding_all rfl
  generalize dotted count ++ " = 1\n".toList = text at path ⊢
  have gap : skipGap? ('a' :: text) = some ('a' :: text) := by
    rw [skipGap?]
    rfl
  have statement : statement? ('a' :: text) =
      some (.assign (List.replicate (count + 1) "a") (.int 1), ['\n']) := by
    show (assignedKey? ('a' :: text)).bind _ = _
    rw [assignedKey?, path]
    show (readValue? [] .value ['1', '\n']).bind _ = _
    rw [value]
    rfl
  have none : statements? [] = some [] := by with_unfolding_all rfl
  exact statements?_of_statement gap statement rfl (Nat.succ_pos _) none

theorem statements?_header {rest : List Char} {others : List Statement}
    (more : statements? rest = some others) (count : Nat) :
    statements? ('[' :: ("global".toList ++ (dotted (count + 1) ++ ']' :: '\n' :: rest))) =
      some (.header ("global" :: List.replicate (count + 1) "a") :: others) := by
  have last : key? ('a' :: ']' :: '\n' :: rest) = some (["a"], ']' :: '\n' :: rest) := by
    rw [key?]
    rfl
  have shorter : ('a' :: (dotted count ++ ']' :: '\n' :: rest)).length <
      ("global".toList ++ (dotted (count + 1) ++ ']' :: '\n' :: rest)).length := by
    simp only [List.length_cons, List.length_append, length_dotted_succ]
    omega
  have path : key? ("global".toList ++ (dotted (count + 1) ++ ']' :: '\n' :: rest)) =
      some ("global" :: List.replicate (count + 1) "a", ']' :: '\n' :: rest) :=
    key?_dot rfl shorter (key?_dotted last count)
  have longer : rest.length <
      ('[' :: ("global".toList ++ (dotted (count + 1) ++ ']' :: '\n' :: rest))).length := by
    simp only [List.length_cons, List.length_append]
    omega
  generalize dotted (count + 1) ++ ']' :: '\n' :: rest = text at path longer ⊢
  have gap : skipGap? ('[' :: ("global".toList ++ text)) =
      some ('[' :: ("global".toList ++ text)) := by
    rw [skipGap?]
    rfl
  have statement : statement? ('[' :: ("global".toList ++ text)) =
      some (.header ("global" :: List.replicate (count + 1) "a"), '\n' :: rest) := by
    show (key? ("global".toList ++ text)).bind _ = _
    rw [path]
    rfl
  exact statements?_of_statement gap statement rfl longer more

theorem ofText?_dotted (count : Nat) :
    Toml.ofText? (String.ofList ("[global".toList ++ dotted (count + 1) ++ "]\na".toList ++
        dotted (count + 1) ++ " = 1\n".toList)) =
      ofStatements? [.header ("global" :: List.replicate (count + 1) "a"),
        .assign (List.replicate (count + 2) "a") (.int 1)] := by
  have read := statements?_header (statements?_assignment (count + 1)) count
  have first : "[global".toList = '[' :: "global".toList := rfl
  have second : "]\na".toList = [']', '\n', 'a'] := rfl
  rw [Toml.ofText?, String.toList_ofList, first, second]
  simp only [List.append_assoc, List.cons_append, List.nil_append]
  exact congrArg (Option.bind · ofStatements?) read

end

set_option maxRecDepth 20000 in
theorem ofText?_deep : Toml.ofText? deepText = some [("global", nested 129)] := by
  have read : Toml.ofText? deepText = _ := ofText?_dotted 63
  rw [read]
  rfl

set_option maxRecDepth 20000 in
theorem ofText_deep : Spec.ofText deepText = .ok deepSpec := by
  rw [Spec.ofText, ofText?_deep]
  rfl

theorem floats_nested (levels : Nat) : (nested levels).floats = [] := by
  induction levels with
  | zero => rfl
  | succ levels ih => simp [nested, Toml.floats, Toml.floatsOfMembers, ih]

theorem deepDocument_not_read_back :
    Spec.ofText deepText = .ok deepSpec ∧ deepSpec.document = .ok deepDocument ∧
      (∀ number ∈ Spec.floatsOf deepText, number.ReadsBack) ∧
      Document.ofText deepDocument.text = .error .syntaxError := by
  have read := ofText_deep
  have built : deepSpec.document = .ok deepDocument := by decide +kernel
  have reads : ∀ number ∈ Spec.floatsOf deepText, number.ReadsBack := by
    simp [Spec.floatsOf, ofText?_deep, Toml.floatsOfMembers, floats_nested]
  have deep : ¬deepDocument.toJson.depth ≤ Json.greatestDepth := by decide +kernel
  have regular := Spec.regular_of_document (Spec.sound_of_ofText read reads) built
  have outcome := Document.ofText_text regular
  rw [if_neg deep] at outcome
  exact ⟨read, built, reads, outcome⟩

end Sample

end KeyLayers
