import KeyLayers.Proofs.Document.Verdict
import KeyLayers.Proofs.Layer.Acceptance
import KeyLayers.Proofs.Layer.Correspondence
import KeyLayers.Proofs.Validation

/-!
# Checked actions and their events

An action is checked when it is compiled, and its events are checked again when the
document is.  Both checks hold a text to one limit of length, but the text of the event is
longer: it is the whole command, with quotes around a word and three more characters for
each quote inside it.

Nothing but the length can make the difference (`Action.checkEvents_encode`).  A compiled
manipulator is therefore malformed exactly if it performs an action whose command is
longer than the limit (`Action.command_limit_exact`).
-/

namespace KeyLayers

/-! ## Quoted words -/

namespace Shell

/-- The length of a word between single quotes, in octets of UTF-8. -/
def quotedLength (word : String) : Nat :=
  word.utf8ByteSize + 3 * word.toList.count '\'' + 2

theorem utf8ByteSize_singleQuote (word : String) :
    (singleQuote word).utf8ByteSize = quotedLength word := by
  have inside : ∀ chars : List Char,
      (String.ofList (chars.flatMap fun c =>
        if c = '\'' then ['\'', '\\', '\'', '\''] else [c])).utf8ByteSize =
      (String.ofList chars).utf8ByteSize + 3 * chars.count '\'' := by
    intro chars
    induction chars with
    | nil => rfl
    | cons c chars ih =>
        rw [List.flatMap_cons, String.ofList_append, String.utf8ByteSize_append, ih,
          String.ofList_cons, String.utf8ByteSize_append, String.utf8ByteSize_singleton,
          List.count_cons]
        by_cases quote : c = '\''
        · subst quote
          have escaped : (String.ofList ['\'', '\\', '\'', '\'']).utf8ByteSize = 4 := by
            decide +kernel
          have alone : '\''.utf8Size = 1 := by decide
          rw [if_pos rfl, escaped, alone, beq_self_eq_true, if_pos rfl]
          omega
        · rw [if_neg quote, ← String.singleton_eq_ofList, String.utf8ByteSize_singleton,
            beq_false_of_ne quote]
          simp only [Bool.false_eq_true, if_false]
          omega
  have sign : (String.singleton '\'').utf8ByteSize = 1 := by decide +kernel
  rw [singleQuote, List.cons_append, String.ofList_cons, String.ofList_append,
    ← String.singleton_eq_ofList, String.utf8ByteSize_append, String.utf8ByteSize_append,
    inside, String.ofList_toList, sign, quotedLength]
  omega

/-- Quoting adds no characters but quotes and backslashes. -/
theorem mem_of_mem_singleQuote {word : String} {c : Char}
    (member : c ∈ (singleQuote word).toList) : c = '\'' ∨ c = '\\' ∨ c ∈ word.toList := by
  rw [singleQuote, String.toList_ofList, List.cons_append, List.mem_cons, List.mem_append,
    List.mem_flatMap, List.mem_singleton] at member
  rcases member with quote | ⟨own, among, inside⟩ | quote
  · exact Or.inl quote
  · split at inside
    · simp only [List.mem_cons, List.not_mem_nil, or_false] at inside
      tauto
    · rw [List.mem_singleton.1 inside]
      exact Or.inr (Or.inr among)
  · exact Or.inl quote

theorem isControl_singleQuote {word : String}
    (printable : ∀ c ∈ word.toList, Text.isControl c = false) :
    ∀ c ∈ (singleQuote word).toList, Text.isControl c = false := by
  intro c member
  rcases mem_of_mem_singleQuote member with rfl | rfl | inside
  · decide
  · decide
  · exact printable c inside

end Shell

/-! ## Commands -/

namespace Action

/-- The length of the command that performs an action, if there is one. -/
def commandLength : Action → Nat
  | sendChord _ | selectInput _ => 0
  | runShell command => command.utf8ByteSize
  | openTarget target =>
      5 + if target.toList.all Shell.isPlain then target.utf8ByteSize
        else Shell.quotedLength target
  | launchApp name => 8 + Shell.quotedLength (name ++ ".app")

theorem checkEvents_shell (command : String) :
    checkEvents [.shell command] = checkArgument .shellCommand command := by
  simp only [checkEvents, checkAll, Event.check, Event.shell]
  split
  next sound => exact sound.symm
  next failed => exact failed.symm

/-- A command made of a verb and a word is held to nothing but the limit. -/
theorem checkEvents_verb {verb word : String} (writable : Text.Writable verb)
    (printable : ∀ c ∈ word.toList, Text.isControl c = false) :
    checkEvents [.shell (verb ++ word)] =
      if verb.utf8ByteSize + word.utf8ByteSize ≤ greatestLength then .ok ()
      else .error (.argumentTooLong (verb.utf8ByteSize + word.utf8ByteSize)) := by
  rw [checkEvents_shell, checkArgument_of_writable (writable.append printable),
    String.utf8ByteSize_append]

/-- The events of a sound action are sound if their command is not too long. -/
theorem checkEvents_encode {action : Action} (sound : action.check = .ok ()) :
    checkEvents action.encode =
      if action.commandLength ≤ greatestLength then .ok ()
      else .error (.argumentTooLong action.commandLength) := by
  cases action with
  | sendChord chord => rfl
  | runShell command =>
      rw [encode, checkEvents_shell]
      exact checkArgument_of_writable (checkArgument_eq_ok_iff.1 sound).1 .shellCommand
  | openTarget target =>
      have printable := (checkArgument_eq_ok_iff.1 sound).1.printable
      have verb : Text.Writable "open " :=
        Text.writable_of_all (by decide +kernel) (by decide +kernel)
      have octets : "open ".utf8ByteSize = 5 := by decide +kernel
      rw [encode, commandLength, Shell.quoteIfNeeded]
      split
      · rw [checkEvents_verb verb printable, octets]
      · rw [checkEvents_verb verb (Shell.isControl_singleQuote printable), octets,
          Shell.utf8ByteSize_singleQuote]
  | launchApp name =>
      have suffix : Text.Writable ".app" :=
        Text.writable_of_all (by decide +kernel) (by decide +kernel)
      have printable := ((checkArgument_eq_ok_iff.1 sound).1.append suffix.printable).printable
      have verb : Text.Writable "open -a " :=
        Text.writable_of_all (by decide +kernel) (by decide +kernel)
      have octets : "open -a ".utf8ByteSize = 8 := by decide +kernel
      rw [encode, commandLength, checkEvents_verb verb (Shell.isControl_singleQuote printable),
        octets, Shell.utf8ByteSize_singleQuote]
  | selectInput source =>
      have patterns : source.check = .ok () := by
        rw [check] at sound
        split at sound
        · cases sound
        · exact sound
      rw [commandLength, if_pos (Nat.zero_le _), checkEvents, checkAll_eq_ok_iff]
      exact List.forall_mem_singleton.2 patterns

/-- Only what is opened or launched has a command that is longer than what was checked. -/
theorem opens_or_launches {action : Action} (sound : action.check = .ok ())
    (long : greatestLength < action.commandLength) :
    (∃ target, action = .openTarget target) ∨ ∃ name, action = .launchApp name := by
  cases action with
  | sendChord chord => exact (Nat.not_lt_zero _ long).elim
  | runShell command =>
      exact (Nat.not_lt.2 (checkArgument_eq_ok_iff.1 sound).2 long).elim
  | openTarget target => exact Or.inl ⟨target, rfl⟩
  | launchApp name => exact Or.inr ⟨name, rfl⟩
  | selectInput source => exact (Nat.not_lt_zero _ long).elim

theorem checkEvents_encode_eq_ok_iff {action : Action} (sound : action.check = .ok ()) :
    checkEvents action.encode = .ok () ↔ action.commandLength ≤ greatestLength := by
  rw [checkEvents_encode sound]
  split
  next short => exact iff_of_true rfl short
  next long => exact iff_of_false (fun impossible => nomatch impossible) long

end Action

/-! ## Compiled manipulators -/

/-- What the author wrote at a place of an expanded tree has passed its check. -/
theorem LayerSpec.check_of_writes {spec : LayerSpec} {tree : TreeEntries} {place : TreePlace}
    {node : LayerNode} (expanded : spec.expand = .ok tree) (writes : spec.Writes place node) :
    node.check = .ok () := by
  rcases writes with ⟨visit, spelling, visited, -, member, -, -⟩
  exact (LayerSpec.sound_of_expand expanded visited).mapping.checked _ member

/-- Raw events that were checked with their binding are sound. -/
theorem RawBinding.checkEvents_of_check {binding : RawBinding}
    (sound : binding.check = .ok ()) : checkEvents binding.events = .ok () := by
  rw [check] at sound
  split at sound
  · cases sound
  · exact sound

namespace CompileOptions

variable {options : CompileOptions}

/-- The variable of a layer has a sound name, so its activation is well-formed. -/
theorem not_isMalformed_activation (sound : options.check = .ok ()) (path : LeaderPath)
    (layers : List Key) (key : Key) :
    ¬ (options.activation path layers key).IsMalformed := by
  have name := (path.child key).checkVariableName_state (check_eq_ok_iff.1 sound).1
  have events : (options.activation path layers key).events =
      [.set ((path.child key).state options.base).name 1, .press key,
        .set ((path.child key).state options.base).name 0] := rfl
  rw [← Manipulator.checkEvents_ne_ok_iff, not_not, checkEvents, checkAll_eq_ok_iff, events,
    List.forall_mem_cons, List.forall_mem_cons, List.forall_mem_singleton]
  exact ⟨name, rfl, name⟩

theorem isMalformed_dispatch_iff {path : LeaderPath} {layers : List Key} {key : Key}
    {leaf : Leaf} :
    (options.dispatch path layers key leaf).IsMalformed ↔
      checkEvents leaf.events ≠ .ok () := by
  have events : (options.dispatch path layers key leaf).events = leaf.events ++ [] ++ [] := rfl
  rw [← Manipulator.checkEvents_ne_ok_iff, events, List.append_nil, List.append_nil]

end CompileOptions

/-! ## The limit -/

/-- What performs a sound action by a command that is too long is malformed. -/
theorem Manipulator.isMalformed_of_onPress {manipulator : Manipulator} {action : Action}
    (sound : action.check = .ok ()) (performs : manipulator.onPress = action.encode)
    (long : greatestLength < action.commandLength) : manipulator.IsMalformed := by
  have unsound := mt (Action.checkEvents_encode_eq_ok_iff sound).1 (Nat.not_le.2 long)
  rw [checkEvents, checkAll_eq_ok_iff] at unsound
  simp only [not_forall] at unsound
  rcases unsound with ⟨event, member, malformed⟩
  rw [← performs] at member
  exact ⟨event, Or.inl member, malformed⟩

/-- Of the compiled manipulators only those are malformed that perform such an action. -/
theorem LayerSpec.isMalformed_iff {spec : LayerSpec} {options : CompileOptions}
    {compilation : Compilation} (compiled : spec.compile options = .ok compilation)
    {label : String} {manipulator : Manipulator}
    (member : manipulator ∈ (compilation.rules label).flatMap Rule.manipulators) :
    manipulator.IsMalformed ↔
      ∃ place action, spec.Writes place (.action action) ∧ action.check = .ok () ∧
        manipulator.onPress = action.encode ∧ greatestLength < action.commandLength := by
  constructor
  · intro malformed
    rcases compile_eq_ok_iff.1 compiled with ⟨checked, tree, expanded, rfl⟩
    rw [Compilation.rules, CompileOptions.manipulators_compileTree] at member
    rcases List.mem_map.1 member with ⟨place, among, rfl⟩
    have has := (TreeEntries.mem_places_iff (distinct_of_expand expanded)).1 among
    rcases exists_writes expanded has with ⟨node, definitions, expanding, writes, expands⟩
    have sound := check_of_writes expanded writes
    rcases place with ⟨path, layers, key, leaf | inner⟩
    · rw [CompileOptions.manipulatorOf, CompileOptions.isMalformed_dispatch_iff] at malformed
      cases expands with
      | action action =>
          have long := mt (Action.checkEvents_encode_eq_ok_iff sound).2 malformed
          exact ⟨_, action, writes, sound, rfl, Nat.not_le.1 long⟩
      | raw binding => exact (malformed (RawBinding.checkEvents_of_check sound)).elim
      | reference found fresh inside =>
          rcases expands_layer_iff.1 inside with ⟨trees, impossible, -⟩
          cases impossible
    · exact (CompileOptions.not_isMalformed_activation checked path layers key
        malformed).elim
  · rintro ⟨-, action, -, sound, performs, long⟩
    exact Manipulator.isMalformed_of_onPress sound performs long

/--
The events of an action that passes its check pass theirs, unless the action opens or
launches something by a command that is longer than the limit.  A compiled manipulator that
performs the action is malformed exactly then, and no document that has it is without errors.
-/
theorem Action.command_limit_exact {action : Action} (sound : action.check = .ok ()) :
    (checkEvents action.encode =
      if action.commandLength ≤ greatestLength then .ok ()
      else .error (.argumentTooLong action.commandLength)) ∧
    (greatestLength < action.commandLength →
      (∃ target, action = .openTarget target) ∨ ∃ name, action = .launchApp name) ∧
    ∀ (spec : LayerSpec) (options : CompileOptions) (compilation : Compilation)
      (label : String), spec.compile options = .ok compilation →
        ∀ rule ∈ compilation.rules label, ∀ manipulator ∈ rule.manipulators,
          manipulator.onPress = action.encode →
            (manipulator.IsMalformed ↔ greatestLength < action.commandLength) ∧
            (greatestLength < action.commandLength →
              ∀ document : Document, ∀ profile ∈ document.profiles,
                rule ∈ profile.rules → document.errors ≠ []) := by
  refine ⟨checkEvents_encode sound, opens_or_launches sound, ?_⟩
  intro spec options compilation label compiled rule among manipulator member performs
  constructor
  · constructor
    · intro malformed
      have listed := List.mem_flatMap.2 ⟨rule, among, member⟩
      rcases (LayerSpec.isMalformed_iff compiled listed).1 malformed with
        ⟨-, other, -, checked, same, long⟩
      have unsound := mt (checkEvents_encode_eq_ok_iff checked).1 (Nat.not_le.2 long)
      rw [← same, performs, checkEvents_encode_eq_ok_iff sound] at unsound
      exact Nat.not_le.1 unsound
    · exact Manipulator.isMalformed_of_onPress sound performs
  · intro long document profile present within
    have malformed := Manipulator.isMalformed_of_onPress sound performs long
    exact Document.errors_ne_nil_iff.2 ⟨profile, present, .malformed within member malformed⟩

namespace Sample

/-- A single action on a key of the root. -/
def alone (action : Action) : LayerSpec where
  root := [("a", .action action)]

/-- The manipulator that performs the action. -/
def performer (action : Action) : Manipulator :=
  CompileOptions.dispatch {} .root [] outer ⟨some action.describe, action.encode⟩

def aloneTree (action : Action) : TreeEntries :=
  [(outer, .leaf ⟨some action.describe, action.encode⟩)]

theorem compile_alone {action : Action} (sound : action.check = .ok ()) :
    (alone action).compile {} = .ok (CompileOptions.compileTree {} (aloneTree action)) := by
  have expanded : (alone action).expand = .ok (aloneTree action) := by
    simp [LayerSpec.expand, alone, aloneTree, LayerSpec.resolveKeys, LayerSpec.expandRoot,
      LayerSpec.expandNode, LayerSpec.checkLeaf_eq, LayerNode.check, LayerSpec.checkReference,
      Claims.add, List.lookup_nil, parse_outer, sound, bind, Except.bind, Except.mapError,
      pure, Except.pure]
  exact LayerSpec.compile_eq_ok_iff.2 ⟨by decide +kernel, _, expanded, rfl⟩

theorem mem_rules_alone (action : Action) :
    ⟨"Hyper Key + a", [performer action]⟩ ∈
      (CompileOptions.compileTree {} (aloneTree action)).rules "Hyper" := .head _

/-- The sample action is short enough, and what performs it is not malformed. -/
theorem launch_within_limit :
    launch.check = .ok () ∧
      (alone launch).compile {} = .ok (CompileOptions.compileTree {} (aloneTree launch)) ∧
      checkEvents launch.encode = .ok () ∧ ¬ (performer launch).IsMalformed := by
  have short : launch.commandLength ≤ greatestLength := by decide +kernel
  have compiles := compile_alone check_launch
  rcases Action.command_limit_exact check_launch with ⟨events, -, compiled⟩
  rcases compiled _ _ _ _ compiles _ (mem_rules_alone launch) (performer launch) (.head _)
    rfl with ⟨malformed, -⟩
  refine ⟨check_launch, compiles, events.trans (if_pos short), ?_⟩
  rw [malformed]
  exact Nat.not_lt.2 short

/-- Some letters in a row. -/
def letters (count : Nat) : String :=
  String.ofList (List.replicate count 'a')

theorem utf8ByteSize_letters (count : Nat) : (letters count).utf8ByteSize = count := by
  induction count with
  | zero => rfl
  | succ count ih =>
      have alone : 'a'.utf8Size = 1 := by decide
      rw [letters] at ih
      rw [letters, List.replicate_succ, String.ofList_cons, String.utf8ByteSize_append,
        String.utf8ByteSize_singleton, ih, alone, Nat.add_comm]

theorem eq_of_mem_letters {count : Nat} {c : Char} (member : c ∈ (letters count).toList) :
    c = 'a' := by
  rw [letters, String.toList_ofList] at member
  exact List.eq_of_mem_replicate member

/-- A target that is four octets shorter than the limit. -/
def longTarget : Action := .openTarget (letters 996)

theorem check_longTarget : longTarget.check = .ok () := by
  have writable : Text.Writable (letters 996) := by
    constructor
    · refine ⟨'a', ?_, by decide⟩
      rw [letters, String.toList_ofList]
      exact List.mem_replicate.2 ⟨by decide, rfl⟩
    · intro c member
      rw [eq_of_mem_letters member]
      decide
  apply checkArgument_eq_ok_iff.2
  refine ⟨writable, ?_⟩
  rw [utf8ByteSize_letters]
  decide

theorem commandLength_longTarget : longTarget.commandLength = 1001 := by
  have plain : (letters 996).toList.all Shell.isPlain = true := by
    rw [List.all_eq_true]
    intro c member
    rw [eq_of_mem_letters member]
    decide
  rw [longTarget, Action.commandLength, if_pos plain, utf8ByteSize_letters]

/-- The rules of a single action, in a document of their own. -/
def aloneDocument (action : Action) : Document where
  global := []
  profiles :=
    [⟨"Default", some true, (CompileOptions.compileTree {} (aloneTree action)).rules "Hyper"⟩]

/-- The target passes its check and compiles, but its command is too long for the document. -/
theorem longTarget_blocks_document :
    longTarget.check = .ok () ∧
      (alone longTarget).compile {} =
        .ok (CompileOptions.compileTree {} (aloneTree longTarget)) ∧
      checkEvents longTarget.encode = .error (.argumentTooLong 1001) ∧
      (aloneDocument longTarget).errors ≠ [] := by
  have long : greatestLength < longTarget.commandLength := by
    rw [commandLength_longTarget]
    decide
  have failed : checkEvents longTarget.encode = .error (.argumentTooLong 1001) := by
    rw [Action.checkEvents_encode check_longTarget, commandLength_longTarget]
    rfl
  have malformed : (performer longTarget).IsMalformed :=
    Manipulator.isMalformed_of_onPress check_longTarget rfl long
  refine ⟨check_longTarget, compile_alone check_longTarget, failed, ?_⟩
  apply Document.errors_ne_nil_iff.2
  exact ⟨_, .head _, Profile.Faulty.malformed (mem_rules_alone longTarget) (.head _) malformed⟩

end Sample

end KeyLayers
