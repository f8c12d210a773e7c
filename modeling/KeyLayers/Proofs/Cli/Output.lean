import KeyLayers.Cli
import KeyLayers.Proofs.Environment
import KeyLayers.Proofs.Output.Build
import KeyLayers.Proofs.Output.Restoration

/-!
# The output that a command means

A build expands an output that is named explicitly like every path of a spec
file, with its tilde and its variables.  The commands about backups look the
output up on their own, and expand only the tilde of a path that is named.  So
the commands mean the same output if none is named, and otherwise exactly if both
expansions of the path agree (`commands_agree_iff`).
-/

namespace KeyLayers

/-! ## Replacing the output -/

namespace Output

open FileTask

/-- The entry that the output has once it is opened is a file with a given text. -/
def IsReplaced (output : Output) (before after : FileSystem) (text : String) : Prop :=
  ∃ place, (perform (prepare output.path) before).2.slot? output.path = some place ∧
    output.Holds place text after

end Output

namespace Cli

variable {α β : Type} {session after : Session}

/-! ## Taking commands apart -/

/-- What a part of a command ends with, and the session that it leaves. -/
def perform (act : Act α) (session : Session) : Except Failure α × Session :=
  (ExceptT.run act).run session

theorem perform_pure (value : α) : perform (pure value) session = (.ok value, session) := rfl

theorem perform_get : perform (get : Act Session) session = (.ok session, session) := rfl

theorem perform_bind (act : Act α) (next : α → Act β) :
    perform (act >>= next) session =
      match perform act session with
      | (.ok value, session) => perform (next value) session
      | (.error failure, session) => (.error failure, session) := by
  simp only [perform, ExceptT.run_bind]
  simp only [StateT.run_bind]
  change (match (ExceptT.run act).run session with | (a, s) => _) = _
  rcases (ExceptT.run act).run session with ⟨_ | _, _⟩ <;> rfl

theorem perform_sayLine (line : String) :
    perform (sayLine line) session =
      (.ok (), { session with printed := session.printed ++ (line ++ "\n") }) := rfl

theorem perform_carryOut (task : FileTask α) (during : Option String) :
    perform (carryOut task during) session =
      ((task.perform session.files).1.mapError (.output during),
        { session with files := (task.perform session.files).2 }) := by
  rw [carryOut, perform_bind, perform_get]
  simp only
  cases task.perform session.files with
  | mk outcome files => cases outcome <;> rfl

/-- What goes on to succeed has carried out its task. -/
theorem perform_carryOut_bind_eq_ok {task : FileTask α} {during : Option String}
    {next : α → Act β} {result : β}
    (performed : perform (carryOut task during >>= next) session = (.ok result, after)) :
    ∃ value files, task.perform session.files = (.ok value, files) ∧
      perform (next value) { session with files } = (.ok result, after) := by
  rw [perform_bind, perform_carryOut] at performed
  cases carried : task.perform session.files with
  | mk outcome files =>
      rw [carried] at performed
      cases outcome with
      | error error => cases performed
      | ok value => exact ⟨value, files, rfl, performed⟩

theorem perform_sayLine_bind (line : String) (next : Unit → Act β) :
    perform (sayLine line >>= next) session =
      perform (next ()) { session with printed := session.printed ++ (line ++ "\n") } := by
  rw [perform_bind, perform_sayLine]

theorem perform_forM_sayLine {items : List α} (line : α → String) :
    perform (items.forM fun item => sayLine (line item)) session =
      (.ok (), { session with
        printed := session.printed ++ String.join (items.map (line · ++ "\n")) }) := by
  induction items generalizing session with
  | nil => simp [List.forM_nil, perform_pure]
  | cons item rest ih =>
      rw [List.forM_eq_forM, List.forM_cons, perform_sayLine_bind, ← List.forM_eq_forM, ih]
      simp [String.append_assoc]

/-! ## Outputs of commands -/

/-- The output that a build writes. -/
def builtOutput (environment : Environment) (spec : Spec) (named : Option String) : Output :=
  ⟨.ofText (spec.outputPath environment named)⟩

/-- The output whose backups are listed and brought back. -/
def backedOutput (environment : Environment) (spec : Spec) (named : Option String) : Output :=
  ⟨.ofText (named.elim (spec.outputPath environment none) environment.expandTilde)⟩

theorem path_ofText_inj {left right : String} :
    Path.ofText left = .ofText right ↔ left = right := by
  constructor
  · intro same
    rw [← Path.text_ofText left, same, Path.text_ofText]
  · exact congrArg Path.ofText

/-- One output is meant exactly if both expansions of the path that is named agree. -/
theorem builtOutput_eq_iff {environment : Environment} {spec : Spec} {named : Option String} :
    builtOutput environment spec named = backedOutput environment spec named ↔
      ∀ path ∈ named, environment.expand path = environment.expandTilde path := by
  rw [builtOutput, backedOutput, Output.mk.injEq, path_ofText_inj, Spec.outputPath]
  cases named with
  | none => simp [Spec.outputPath]
  | some path => simp

section

variable {environment : Environment} {now : Timestamp} {path : Path} {named : Option String}
  {spec : Spec}

/-- What is printed before an output is looked up. -/
def announcement (path : Path) (named : Option String) : String :=
  if named.isNone then s!"→ Reading spec: {path.text}\n" else ""

/-- What is printed about the backups of an output, line by line. -/
def listing (output : Output) (backups : List Path) : List String :=
  s!"Backups of: {output.path.text}\n" ::
    backups.map (fun backup => "  " ++ backup.name?.getD "") ++
      [s!"\n✓ Total: {backups.length} backups"]

theorem perform_outputFor {next : Output → Act β} {result : β}
    (loaded : (Spec.load path).perform session.files = (.ok spec, session.files))
    (performed : perform (outputFor environment path named >>= next) session =
      (.ok result, after)) :
    ∃ files, (Output.prepare (backedOutput environment spec named).path).perform session.files =
        (.ok (backedOutput environment spec named), files) ∧
      perform (next (backedOutput environment spec named))
        { files, printed := session.printed ++ announcement path named } =
          (.ok result, after) := by
  have opened {session : Session} {text : String}
      (performed : perform (carryOut (Output.prepare (.ofText text)) >>= next) session =
        (.ok result, after)) :
      ∃ files, (Output.prepare (.ofText text)).perform session.files =
          (.ok ⟨.ofText text⟩, files) ∧
        perform (next ⟨.ofText text⟩) { session with files } = (.ok result, after) := by
    rcases perform_carryOut_bind_eq_ok performed with ⟨output, files, prepare, performed⟩
    cases (Output.perform_prepare _ session.files).2 output (congrArg Prod.fst prepare)
    exact ⟨files, prepare, performed⟩
  cases named with
  | some text =>
      simp only [outputFor, pure_bind] at performed
      rcases opened performed with ⟨files, prepare, performed⟩
      refine ⟨files, prepare, ?_⟩
      rw [announcement, Option.isNone_some, if_neg (by decide), String.append_empty]
      exact performed
  | none =>
      simp only [outputFor, bind_assoc, bind_map_left, loadAloud, sayReading, load,
        perform_sayLine_bind] at performed
      rcases perform_carryOut_bind_eq_ok performed with ⟨read, files, load, performed⟩
      cases loaded.symm.trans load
      rcases opened performed with ⟨files, prepare, performed⟩
      exact ⟨files, prepare, performed⟩

/-- A build that succeeds has written the document to its output. -/
theorem replaced_of_build (request : BuildRequest)
    (loaded : (Spec.load request.spec).perform session.files = (.ok spec, session.files))
    (performed : perform (build environment now request) session = (.ok (), after)) :
    ∃ document, spec.document = .ok document ∧
      (builtOutput environment spec request.output).IsReplaced session.files after.files
        document.text := by
  rw [build, sayReading, perform_sayLine_bind] at performed
  rcases perform_carryOut_bind_eq_ok performed with ⟨summary, files, ran, performed⟩
  have same : after.files = files := by
    cases reported : summary.backup? <;>
      simp only [reported, perform_sayLine, perform_sayLine_bind] at performed <;>
      cases performed <;> rfl
  rcases BuildRequest.exists_stages ran with ⟨stages⟩
  cases loaded.symm.trans stages.loaded
  rcases stages.exists_holds with ⟨-, place, found, -, -, holds⟩
  refine ⟨stages.document, stages.compiled, place, ?_, same ▸ holds⟩
  rw [← found]
  exact congrArg (fun files : FileSystem => files.slot? _) (congrArg Prod.snd stages.opens)

/-- What a build prints does not keep it from succeeding. -/
theorem exists_build {request : BuildRequest} {summary : BuildSummary} {files : FileSystem}
    (ran : (request.run environment now).perform session.files = (.ok summary, files)) :
    ∃ after, perform (build environment now request) session = (.ok (), after) := by
  rw [build, sayReading, perform_sayLine_bind, perform_bind, perform_carryOut, ran]
  simp only [Except.mapError]
  cases summary.backup? with
  | none => exact ⟨_, perform_sayLine _⟩
  | some backup => exact ⟨_, (perform_sayLine_bind _ _).trans (perform_sayLine _)⟩

/-- The backups that are listed are those of the output that is looked up. -/
theorem listed_of_backups
    (loaded : (Spec.load path).perform session.files = (.ok spec, session.files))
    (performed : perform (backups environment path named) session = (.ok (), after)) :
    ∃ backups, (backedOutput environment spec named).listBackups.perform after.files =
        (.ok backups, after.files) ∧
      after.printed = session.printed ++ announcement path named ++
        String.join ((listing (backedOutput environment spec named) backups).map (· ++ "\n")) := by
  rw [backups] at performed
  rcases perform_outputFor loaded performed with ⟨opened, -, performed⟩
  rcases perform_carryOut_bind_eq_ok performed with ⟨backups, files, listed, performed⟩
  have kept := Output.keeps_listBackups (backedOutput environment spec named) (· = opened)
    opened rfl
  rw [listed] at kept
  cases kept
  rw [perform_sayLine_bind, perform_bind, perform_forM_sayLine] at performed
  simp only [perform_sayLine] at performed
  cases performed
  refine ⟨backups, listed, ?_⟩
  simp [listing, String.append_assoc, Function.comp_def]

/-- Where an output that is named can be opened and its backups listed, they are printed. -/
theorem perform_backups_eq {text printed : String} {files opened : FileSystem}
    {backups : List Path}
    (prepare : (Output.prepare (backedOutput environment spec (some text)).path).perform files =
      (.ok (backedOutput environment spec (some text)), opened))
    (listed : (backedOutput environment spec (some text)).listBackups.perform opened =
      (.ok backups, opened)) :
    perform (Cli.backups environment path (some text)) ⟨files, printed⟩ =
      (.ok (), ⟨opened, printed ++
        String.join ((listing (backedOutput environment spec (some text)) backups).map
          (· ++ "\n"))⟩) := by
  rw [backedOutput, Option.elim_some] at prepare listed ⊢
  simp only [Cli.backups, outputFor, pure_bind, perform_bind, perform_carryOut, prepare, listed,
    Except.mapError, perform_sayLine, perform_forM_sayLine]
  simp [listing, String.append_assoc, Function.comp_def]

/-- The backup that a path means among some files. -/
def meantBackup (files : FileSystem) (output : Output) (backup : Path) : Path :=
  if files.isPresent backup then backup else output.backups.join backup

theorem perform_backupFor (output : Output) (backup : Path) :
    perform (backupFor output backup) session =
      (.ok (meantBackup session.files output backup), session) := by
  rw [backupFor, perform_bind, perform_get, meantBackup]
  simp only
  split <;> rfl

/-- What is brought back replaces the output that is looked up. -/
theorem replaced_of_restore {backup : Path}
    (loaded : (Spec.load path).perform session.files = (.ok spec, session.files))
    (performed : perform (restore environment now path named backup) session =
      (.ok (), after)) :
    ∃ opened text,
      (Output.prepare (backedOutput environment spec named).path).perform session.files =
          (.ok (backedOutput environment spec named), opened) ∧
        opened.readText (meantBackup opened (backedOutput environment spec named) backup) =
          .ok text ∧
        (backedOutput environment spec named).IsReplaced session.files after.files text := by
  rw [restore] at performed
  rcases perform_outputFor loaded performed with ⟨opened, prepare, performed⟩
  rw [perform_bind, perform_backupFor] at performed
  rcases perform_carryOut_bind_eq_ok performed with ⟨⟨⟩, files, restored, performed⟩
  rw [perform_sayLine] at performed
  cases performed
  rcases Output.perform_restore_eq_ok restored with ⟨text, saved, read, -, evolved, replaced⟩
  rcases FileSystem.replace_eq_ok replaced with ⟨place, mark, found, other, rfl⟩
  refine ⟨opened, text, prepare, read, place, ?_, Output.holds_put found other mark⟩
  rw [prepare]
  exact evolved.includes.slot?_eq found

end

/--
A build writes one output, and the commands about backups list and replace the
backups of one, whichever files they find.  Both outputs are the same exactly if
the path that is named has one expansion, as it has without a dollar sign.  A path
that does not begin with a tilde has two as soon as a variable changes it.
-/
theorem commands_agree_iff (invocation : Invocation) (environment : Environment)
    (now : Timestamp) (session after : Session) (spec : Spec)
    (loaded : (Spec.load (.ofText (environment.expandTilde invocation.spec))).perform
      session.files = (.ok spec, session.files)) :
    let built := builtOutput environment spec invocation.output
    let backed := backedOutput environment spec invocation.output
    (∀ takesBackup, perform
        (Invocation.run { invocation with command := .build takesBackup } environment now)
          session = (.ok (), after) →
      ∃ document, spec.document = .ok document ∧
        built.IsReplaced session.files after.files document.text) ∧
    (perform (Invocation.run { invocation with command := .backups } environment now)
        session = (.ok (), after) →
      ∃ backups, backed.listBackups.perform after.files = (.ok backups, after.files) ∧
        after.printed = session.printed ++
          announcement (.ofText (environment.expandTilde invocation.spec)) invocation.output ++
            String.join ((listing backed backups).map (· ++ "\n"))) ∧
    (∀ backup, perform
        (Invocation.run { invocation with command := .restore backup } environment now)
          session = (.ok (), after) →
      ∃ opened text,
        (Output.prepare backed.path).perform session.files = (.ok backed, opened) ∧
          opened.readText (meantBackup opened backed (.ofText backup)) = .ok text ∧
          backed.IsReplaced session.files after.files text) ∧
    (built = backed ↔
      ∀ path ∈ invocation.output, environment.expand path = environment.expandTilde path) ∧
    ((∀ path ∈ invocation.output, '$' ∉ path.toList) → built = backed) ∧
    ∀ path, invocation.output = some path →
      Environment.startsWithTilde path.toList = false →
        (built = backed ↔ ∀ expanded,
          environment.expandVariables? path.toList = some expanded → expanded = path.toList) := by
  refine ⟨?_, ?_, ?_, builtOutput_eq_iff, ?_, ?_⟩
  · intro takesBackup performed
    exact replaced_of_build
      { spec := .ofText (environment.expandTilde invocation.spec), output := invocation.output,
        takesBackup }
      loaded performed
  · intro performed
    exact listed_of_backups loaded performed
  · intro backup performed
    exact replaced_of_restore loaded performed
  · intro plain
    rw [builtOutput_eq_iff]
    intro path named
    exact Environment.expand_of_same
      (Environment.expandVariables?_of_no_dollar _ (plain path named))
  · intro path named plain
    rw [builtOutput_eq_iff, ← Environment.expand_eq_expandTilde_iff plain, named]
    simp

end Cli

namespace Sample

open Cli

/-- A variable that stands for a part of the name of the output. -/
def naming : Environment := ⟨[("NAME", "out")]⟩

/-- A command on the output that has a given name. -/
def invoke (named : String) (command : Command) : Invocation where
  spec := "spec.toml"
  output := some named
  command := command

theorem perform_load_naming :
    (Spec.load (.ofText (naming.expandTilde "spec.toml"))).perform folder = (.ok {}, folder) :=
  perform_load_folder

/-- Whatever the name of an output, there are no backups of it yet. -/
theorem perform_backups_folder {named : String} (same : naming.expandTilde named = named)
    (own : (Path.ofText named).name? = some named)
    (beside : Output.backups ⟨.ofText named⟩ = archived.backups) :
    Cli.perform ((invoke named .backups).run naming buildTime) ⟨folder, ""⟩ =
      (.ok (), ⟨opened, "" ++ String.join ((listing ⟨.ofText named⟩ []).map (· ++ "\n"))⟩) := by
  have target : backedOutput naming {} (some named) = ⟨.ofText named⟩ := by
    rw [backedOutput, Option.elim_some, same]
  have prepare : (Output.prepare (Output.mk (.ofText named)).path).perform folder =
      (.ok ⟨.ofText named⟩, opened) := by
    apply Output.perform_prepare_of_vacant _ rfl
    rw [beside]
    exact slot?_backups rfl
  have names : opened.names (Output.backups ⟨.ofText named⟩) = .ok [] := by
    rw [beside]
    exact names_backups rfl rfl
  have none : (Backup.among Timestamp.ofText? named []).map Backup.name = [] := by
    simp [Backup.among]
  have listed : (Output.listBackups ⟨.ofText named⟩).perform opened = (.ok [], opened) :=
    Output.perform_listBackupsBy_eq own names none
  rw [← target] at prepare listed ⊢
  exact perform_backups_eq prepare listed

theorem backups_plain :
    Cli.perform ((invoke "out.json" .backups).run naming buildTime) ⟨folder, ""⟩ =
      (.ok (), ⟨opened, "Backups of: out.json\n\n\n✓ Total: 0 backups\n"⟩) :=
  perform_backups_folder (by decide) (by decide) (by decide)

theorem backups_variable :
    Cli.perform ((invoke "$NAME.json" .backups).run naming buildTime) ⟨folder, ""⟩ =
      (.ok (), ⟨opened, "Backups of: $NAME.json\n\n\n✓ Total: 0 backups\n"⟩) :=
  perform_backups_folder (by decide) (by decide) (by decide)

/-- A plain name means one output, of which there are no backups yet. -/
theorem plain_agrees :
    (Spec.load (.ofText (naming.expandTilde "spec.toml"))).perform folder = (.ok {}, folder) ∧
      builtOutput naming {} (some "out.json") = backedOutput naming {} (some "out.json") ∧
      ∃ backups,
        (backedOutput naming {} (some "out.json")).listBackups.perform opened =
            (.ok backups, opened) ∧
          "Backups of: out.json\n\n\n✓ Total: 0 backups\n" =
            String.join ((listing (backedOutput naming {} (some "out.json")) backups).map
              (· ++ "\n")) := by
  have agreed := commands_agree_iff (invoke "out.json" .backups) naming buildTime
    ⟨folder, ""⟩ ⟨opened, "Backups of: out.json\n\n\n✓ Total: 0 backups\n"⟩ {}
    perform_load_naming
  rcases agreed with ⟨-, listed, -, -, plain, -⟩
  rcases listed backups_plain with ⟨backups, found, printed⟩
  refine ⟨perform_load_naming, plain ?_, backups, found, printed⟩
  intro path named
  cases named
  decide

theorem outputPath_naming :
    Spec.outputPath {} naming (some "$NAME.json") = "out.json" := by
  have name : (['N', 'A', 'M', 'E', '.', 'j', 's', 'o', 'n'].takeWhile Environment.isNameChar) =
      ['N', 'A', 'M', 'E'] := by decide +kernel
  have rest : (['N', 'A', 'M', 'E', '.', 'j', 's', 'o', 'n'].dropWhile Environment.isNameChar) =
      ['.', 'j', 's', 'o', 'n'] := by decide +kernel
  have expanded : naming.expandVariables? ['$', 'N', 'A', 'M', 'E', '.', 'j', 's', 'o', 'n'] =
      some ['o', 'u', 't', '.', 'j', 's', 'o', 'n'] := by
    simp [Environment.expandVariables?, name, rest, naming, Environment.get?]
  have letters : "$NAME.json".toList =
      ['$', 'N', 'A', 'M', 'E', '.', 'j', 's', 'o', 'n'] := rfl
  rw [Spec.outputPath, Option.getD_some, Environment.expand, letters, expanded]
  rfl

/-- The build of `build`, with its output named by a variable. -/
def variableBuild : BuildRequest :=
  { build with output := some "$NAME.json" }

theorem isOk_variableBuild :
    ((variableBuild.run naming buildTime).perform folder).1.isOk = true := by
  have same : (variableBuild.run naming buildTime).perform folder =
      (build.run ⟨[]⟩ buildTime).perform folder := by
    simp only [BuildRequest.run, variableBuild, build, FileTask.perform_bind,
      perform_load_folder, outputPath_naming, outputPath_build]
    rfl
  rw [same]
  exact isOk_build

/-- The build replaces `out.json`, and the backups listed are those of `$NAME.json`. -/
theorem variable_disagrees :
    (∃ after, Cli.perform ((invoke "$NAME.json" (.build false)).run naming buildTime)
        ⟨folder, ""⟩ = (.ok (), after) ∧
      Output.IsReplaced ⟨.ofText "out.json"⟩ folder after.files emptyDocument.text) ∧
    Cli.perform ((invoke "$NAME.json" .backups).run naming buildTime) ⟨folder, ""⟩ =
      (.ok (), ⟨opened, "Backups of: $NAME.json\n\n\n✓ Total: 0 backups\n"⟩) := by
  refine ⟨?_, backups_variable⟩
  have ok := isOk_variableBuild
  rcases ran : (variableBuild.run naming buildTime).perform folder with ⟨error | summary, files⟩
  · rw [ran] at ok
    cases ok
  · have succeeds : ∃ after, Cli.perform (Cli.build naming buildTime variableBuild)
        ⟨folder, ""⟩ = (.ok (), after) := exists_build ran
    rcases succeeds with ⟨after, built⟩
    have loaded : (Spec.load variableBuild.spec).perform (Session.mk folder "").files =
        (.ok {}, (Session.mk folder "").files) := perform_load_folder
    rcases replaced_of_build variableBuild loaded built with ⟨document, compiled, replaced⟩
    cases emptyDocument_eq.symm.trans compiled
    rw [builtOutput, variableBuild, outputPath_naming] at replaced
    exact ⟨after, built, replaced⟩

end Sample

end KeyLayers
