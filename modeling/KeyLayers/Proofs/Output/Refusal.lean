import KeyLayers.Proofs.Conflict
import KeyLayers.Proofs.Output.Publication
import KeyLayers.Proofs.Output.Rollback

/-!
# Builds that are refused

A spec file that cannot be read or compiled is refused before anything is written.
A document with errors is refused later, when the transaction of the build has
already begun: the directory of the backups is there by then, and so is a backup
of the output, if one is to be taken (`BuildRequest.run_refused`).  Nothing is
removed, and nothing else is written.
-/

namespace KeyLayers

open FileTask

namespace Output

/-- What a build leaves that is refused once its output has been named, and its error. -/
inductive Refused (output : Output) (request : BuildRequest) (now : Timestamp) (count : Nat)
    (before : FileSystem) : OutputError → FileSystem → Prop where
  /-- The output cannot be opened or backed up. -/
  | unopened {error : OutputError} {after : FileSystem} (extended : after.Extends before) :
      Refused output request now count before error after
  /-- There is no backup to take. -/
  | unsaved {after : FileSystem} (extended : after.Extends before)
      (nothing : request.takesBackup = false ∨ after.isPresent output.path = false) :
      Refused output request now count before (.refused count) after
  /-- A backup has been taken. -/
  | saved {opened : FileSystem} {name text : String} {place : Place} {mark : Bool}
      (extended : opened.Extends before) (takes : request.takesBackup = true)
      (named : output.path.name? = some name)
      (read : opened.readText output.path = .ok text)
      (located : opened.locate true (output.backups.child (Backup.nameAt name now)) =
        .ok place) :
      Refused output request now count before (.refused count)
        (opened.put place { node := .file text.toUTF8, isReadOnly := mark })

end Output

/-- A transaction that cannot begin has changed nothing. -/
theorem Transaction.perform_start_eq_error {output : Output} {now : Timestamp}
    {error : OutputError} {files after : FileSystem}
    (failed : perform (Transaction.start output now) files = (.error error, after)) :
    after = files := by
  rw [Transaction.start, perform_bind, Output.perform_isPresent] at failed
  cases present : files.isPresent output.path with
  | false => simp [present, perform_pure] at failed
  | true =>
      simp only [present, if_true] at failed
      rw [perform_bind_eq_iff] at failed
      rcases failed with ⟨inner, failed, -⟩ | ⟨backup, copied, -, impossible⟩
      · rcases Output.perform_backUp failed with
          ⟨-, same⟩ | ⟨text, name, -, -, -, impossible⟩
        · exact same
        · cases impossible
      · cases impossible

namespace BuildRequest

variable {request : BuildRequest} {environment : Environment} {now : Timestamp}
  {output : Output} {before opened after : FileSystem} {transaction : Transaction}

/-- A build that cannot begin its transaction has changed nothing. -/
theorem perform_transaction_eq_error {error : OutputError}
    (failed : perform (request.transaction output now) opened = (.error error, after)) :
    after = opened := by
  rw [BuildRequest.transaction] at failed
  cases takes : request.takesBackup with
  | false =>
      rw [takes] at failed
      cases failed
  | true =>
      rw [takes] at failed
      exact Transaction.perform_start_eq_error failed

/-- A build that is refused after its transaction has begun leaves what that began with. -/
theorem refused_of_transaction (count : Nat) (extended : opened.Extends before)
    (started : perform (request.transaction output now) opened = (.ok transaction, after)) :
    output.Refused request now count before (.refused count) after := by
  rw [BuildRequest.transaction] at started
  cases takes : request.takesBackup with
  | false =>
      rw [takes] at started
      cases started
      exact .unsaved extended (Or.inl takes)
  | true =>
      rw [takes] at started
      rcases Transaction.perform_start_eq_ok started with
        ⟨absent, rfl, -⟩ | ⟨text, name, named, read, written, -⟩
      · exact .unsaved extended (Or.inr absent)
      · rcases FileSystem.write_eq_ok written with ⟨place, mark, located, -, -, rfl⟩
        exact .saved extended takes named read located

/-- From the opening of the output to the document that is refused. -/
theorem perform_refusing {path : Path} {document : Document} {keep : Nat}
    {summary : Output → Transaction → Nat → BuildSummary} (faulty : document.errors ≠ []) :
    ∃ error after, perform (do
        let output ← Output.prepare path
        let transaction ← request.transaction output now
        let _ ← transaction.commitDocument document
        let count ← output.prune keep
        return summary output transaction count) before = (.error error, after) ∧
      Output.Refused ⟨path⟩ request now document.errors.length before error after := by
  have extended := Output.extends_prepare path before
  have same := (Output.perform_prepare path before).2
  rw [perform_bind]
  cases prepared : perform (Output.prepare path) before with
  | mk outcome opened =>
      rw [prepared] at extended same
      cases outcome with
      | error error => exact ⟨error, opened, rfl, .unopened extended⟩
      | ok output =>
          cases same output rfl
          simp only [perform_bind]
          cases started : perform (request.transaction ⟨path⟩ now) opened with
          | mk outcome after =>
              cases outcome with
              | error error =>
                  refine ⟨error, after, rfl, .unopened ?_⟩
                  rw [perform_transaction_eq_error started]
                  exact extended
              | ok transaction =>
                  refine ⟨.refused document.errors.length, after, ?_,
                    refused_of_transaction _ extended started⟩
                  cases errors : document.errors with
                  | nil => exact (faulty errors).elim
                  | cons first more =>
                      simp only [Transaction.commitDocument, errors, perform_throw]

/--
A build of a spec file that cannot be read or compiled leaves all files as they were.
One of a document with errors leaves at most a new directory and a backup of the
output.
-/
theorem run_refused (request : BuildRequest) (environment : Environment) (now : Timestamp)
    (before : FileSystem) :
    (∀ error, (perform (Spec.load request.spec) before).1 = .error error →
      perform (request.run environment now) before = (.error error, before)) ∧
    ∀ spec, (perform (Spec.load request.spec) before).1 = .ok spec →
      (∀ error, spec.document = .error error →
        perform (request.run environment now) before = (.error (.spec error), before)) ∧
      ∀ document, spec.document = .ok document → document.errors ≠ [] →
        ∃ error after, perform (request.run environment now) before = (.error error, after) ∧
          (request.target environment spec).Refused request now document.errors.length before
            error after := by
  have kept := perform_load request.spec before
  rw [run, perform_bind]
  cases loaded : perform (Spec.load request.spec) before with
  | mk outcome files =>
      rw [loaded] at kept
      change files = before at kept
      rw [kept]
      constructor
      · rintro error rfl
        rfl
      · rintro spec rfl
        dsimp only
        rw [Spec.compiled, perform_bind, perform_ofExcept]
        constructor
        · intro error failed
          simp only [failed, Except.mapError]
        · intro document compiled faulty
          simp only [compiled, Except.mapError]
          exact perform_refusing faulty

end BuildRequest

/-! ## A document with an error -/

namespace Sample

/-- A spec file with a key that sets a variable for good. -/
def stuckText : String :=
  "[[layers.a.to]]\nset_variable.name = \"x\"\nset_variable.value = 1\n"

def stuckSpec : Spec where
  layers := [("a", .table [("to", .array
    [.table [("set_variable", .table [("name", .str "x"), ("value", .int 1)])]])])]

def stuckBinding : RawBinding := ⟨[.set "x" 1], none⟩

def stuckLayers : LayerSpec where
  root := [("a", .raw stuckBinding)]

def stuckTree : TreeEntries :=
  [(outer, .leaf ⟨stuckBinding.description, stuckBinding.events⟩)]

def stuckDocument : Document where
  global := []
  profiles :=
    [⟨"Default", some true, (CompileOptions.compileTree {} stuckTree).rules "Hyper"⟩]

/-- The spec file and an older output, with a directory for its backups. -/
def stuckFolder : FileSystem where
  entries :=
    [(["spec.toml"], { node := .file stuckText.toUTF8 }),
      (["out.json"], { node := .file "old".toUTF8 }), (["backups"], { node := .directory })]

def stuckBuild : BuildRequest where
  spec := .ofText "spec.toml"
  output := some "out.json"

theorem expand_stuckLayers : stuckLayers.expand = .ok stuckTree := by
  have checked : stuckBinding.check = .ok () := by decide +kernel
  simp [LayerSpec.expand, stuckLayers, stuckTree, LayerSpec.resolveKeys,
    LayerSpec.expandRoot, LayerSpec.expandNode, LayerSpec.checkLeaf_eq,
    LayerSpec.checkReference, LayerNode.check, Claims.add, List.lookup_nil, parse_outer,
    checked, bind, Except.bind, Except.mapError, pure, Except.pure]

theorem document_stuck : stuckSpec.document = .ok stuckDocument := by
  have chosen : stuckSpec.options = .ok {} := by decide +kernel
  have named : stuckSpec.hyperKey = .ok none := by decide +kernel
  have read : stuckSpec.layerSpec { name := "Default", selected := some true } =
      .ok stuckLayers := rfl
  have compiled : stuckLayers.compile {} = .ok (CompileOptions.compileTree {} stuckTree) :=
    LayerSpec.compile_eq_ok_iff.2 ⟨by decide +kernel, stuckTree, expand_stuckLayers, rfl⟩
  exact Spec.document_eq_of_single chosen named rfl read rfl compiled

theorem errors_stuck : stuckDocument.errors.length = 1 := by decide +kernel

theorem stuck_faulty : stuckDocument.errors ≠ [] := by
  intro sound
  have single := errors_stuck
  rw [sound] at single
  cases single

theorem perform_load_stuck :
    perform (Spec.load (.ofText "spec.toml")) stuckFolder = (.ok stuckSpec, stuckFolder) := by
  have read : Toml.statements? stuckText.toList =
      some [.itemHeader ["layers", "a", "to"], .assign ["set_variable", "name"] (.str "x"),
        .assign ["set_variable", "value"] (.int 1)] := by with_unfolding_all rfl
  exact perform_load_spec rfl rfl read (by decide) rfl

/-- Without its spec file the build changes nothing; with it, the document is refused. -/
theorem stuck_build_refused :
    (perform (Spec.load (.ofText "none.toml")) stuckFolder).1 =
        .error (.notFound (.ofText "none.toml")) ∧
      perform (BuildRequest.run { stuckBuild with spec := .ofText "none.toml" } ⟨[]⟩
        archiveTime) stuckFolder = (.error (.notFound (.ofText "none.toml")), stuckFolder) ∧
      (perform (Spec.load stuckBuild.spec) stuckFolder).1 = .ok stuckSpec ∧
      stuckSpec.document = .ok stuckDocument ∧ stuckDocument.errors ≠ [] ∧
      ∃ error after,
        perform (stuckBuild.run ⟨[]⟩ archiveTime) stuckFolder = (.error error, after) ∧
          (stuckBuild.target ⟨[]⟩ stuckSpec).Refused stuckBuild archiveTime
            stuckDocument.errors.length stuckFolder error after := by
  have absent : (perform (Spec.load (.ofText "none.toml")) stuckFolder).1 =
      .error (.notFound (.ofText "none.toml")) := by
    have slot : stuckFolder.slot? (.ofText "none.toml") = some ["none.toml"] :=
      slot?_alone (by decide) (by decide) rfl
    have missing := FileSystem.isPresent_of_vacant slot (by decide) rfl
    simp only [Spec.load, perform_bind, perform_get, missing, Bool.false_eq_true, if_false,
      perform_throw]
  have loaded : (perform (Spec.load stuckBuild.spec) stuckFolder).1 = .ok stuckSpec :=
    congrArg Prod.fst perform_load_stuck
  refine ⟨absent, ?_, loaded, document_stuck, stuck_faulty, ?_⟩
  · exact (BuildRequest.run_refused { stuckBuild with spec := .ofText "none.toml" } ⟨[]⟩
      archiveTime stuckFolder).1 _ absent
  · exact ((BuildRequest.run_refused stuckBuild ⟨[]⟩ archiveTime stuckFolder).2 stuckSpec
      loaded).2 stuckDocument document_stuck stuck_faulty

/-- The document is refused, and yet there is a backup that was not there before. -/
theorem stuck_build_backs_up :
    perform (Spec.load stuckBuild.spec) stuckFolder = (.ok stuckSpec, stuckFolder) ∧
      stuckSpec.document = .ok stuckDocument ∧ stuckDocument.errors ≠ [] ∧
      ∃ after, perform (stuckBuild.run ⟨[]⟩ archiveTime) stuckFolder =
          (.error (.refused 1), after) ∧
        stuckFolder.entryAt? ["backups", backupName] = none ∧
        after.entryAt? ["backups", backupName] = some { node := .file "old".toUTF8 } := by
  have vacant : stuckFolder.entryAt? ["backups", backupName] = none := by
    simp [FileSystem.entryAt?, stuckFolder]
  have prepared : perform (Output.prepare (.ofText "out.json")) stuckFolder =
      (.ok archived, stuckFolder) :=
    Output.perform_prepare_of_directory (locate_backups rfl rfl) rfl
  have started : perform (Transaction.start archived archiveTime) stuckFolder =
      (.ok begun, stuckFolder.put ["backups", backupName]
        { node := .file "old".toUTF8 }) := by
    apply Transaction.perform_start_eq name_archived (readText_archived rfl rfl)
      (locate_backups rfl rfl) rfl
    intro entry found
    cases vacant.symm.trans found
  rcases List.length_eq_one_iff.1 errors_stuck with ⟨issue, errors⟩
  refine ⟨perform_load_stuck, document_stuck, stuck_faulty,
    stuckFolder.put ["backups", backupName] { node := .file "old".toUTF8 }, ?_, vacant,
    FileSystem.entryAt?_put_self (by simp)⟩
  simp only [BuildRequest.run, stuckBuild, perform_bind, perform_load_stuck, Spec.compiled,
    document_stuck, Except.mapError, perform_ofExcept, BuildRequest.transaction, if_true]
  have outputPath : Spec.outputPath stuckSpec ⟨[]⟩ (some "out.json") = "out.json" := by
    decide +kernel
  rw [outputPath, prepared]
  simp only [started, Transaction.commitDocument, errors, perform_throw]
  rfl

end Sample

end KeyLayers
