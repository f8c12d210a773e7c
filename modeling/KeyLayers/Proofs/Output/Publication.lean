import KeyLayers.Proofs.Output.Listing

/-!
# The output of a build

A build either leaves the output as it was or puts the whole document in its
stead.  Everything before the commit only adds: directories, and a backup that
is a copy of the output.  The commit changes one entry.  What is removed after
it has other names.

The output is the entry that its name stands for in its directory.  A path can
come to lead there, or cease to, while the entry stays the same, since the
directories of the path may be made by the build, and links on its way may have
the names of backups.
-/

namespace KeyLayers

open FileTask

namespace Output

/-- What the name of the output stands for in its directory, if that is there. -/
def node? (output : Output) (files : FileSystem) : Option Node :=
  (files.slot? output.path).bind files.nodeAt?

theorem node?_eq_some_iff {output : Output} {files : FileSystem} {node : Node} :
    output.node? files = some node ↔
      ∃ place, files.slot? output.path = some place ∧ files.nodeAt? place = some node :=
  Option.bind_eq_some_iff

/-- A file under the name of the output is read, if nothing stands behind the name. -/
theorem readContent_of_node? {output : Output} {files : FileSystem} {content : ByteArray}
    (last : output.path.segments.getLast? = output.path.name?)
    (found : output.node? files = some (.file content)) :
    files.readContent output.path = .ok content := by
  rcases node?_eq_some_iff.1 found with ⟨place, slot, file⟩
  apply FileSystem.readContent_eq_ok_iff.2
  refine ⟨place, FileSystem.locate_of_slot slot last ?_, file⟩
  simp [file]

/-- A build has left the output as it was. -/
structure Untouched (output : Output) (before after : FileSystem) : Prop where
  /-- Where the directory of the output was there, it holds the same entry. -/
  entry : ∀ place, before.slot? output.path = some place →
    after.slot? output.path = some place ∧ after.entryAt? place = before.entryAt? place
  /-- Where the directory is there now, what it holds was there before, but for directories. -/
  origin : ∀ place entry, after.slot? output.path = some place → entry.node ≠ .directory →
    (after.entryAt? place = some entry ↔ before.entryAt? place = some entry)
  content : ∀ content, before.readContent output.path = .ok content →
    after.readContent output.path = .ok content

/-- An output that is untouched stands for what it stood for. -/
theorem Untouched.node?_eq {output : Output} {before after : FileSystem}
    (untouched : output.Untouched before after) (there : before.slot? output.path ≠ none) :
    output.node? after = output.node? before := by
  rcases Option.ne_none_iff_exists'.1 there with ⟨place, slot⟩
  rcases untouched.entry place slot with ⟨still, same⟩
  rw [node?, node?, slot, still, Option.bind_some, Option.bind_some, FileSystem.nodeAt?,
    FileSystem.nodeAt?, same]

/-- The entry of the output is a file with a given text. -/
structure Holds (output : Output) (place : Place) (text : String) (files : FileSystem) : Prop where
  node : files.nodeAt? place = some (.file text.toUTF8)
  only : ∀ other, files.slot? output.path = some other → other = place

/--
The output is a document without errors, at the place that its path leads to
once the directory is there.  It can be read through its path, if that does not
go on after the name and the directory can still be found.
-/
structure Published (output : Output) (document : Document) (before after : FileSystem) :
    Prop where
  sound : document.errors = []
  written : ∃ place, (∀ other, before.slot? output.path = some other → other = place) ∧
    (perform (prepare output.path) before).2.slot? output.path = some place ∧
      output.Holds place document.text after
  read : output.path.segments.getLast? = output.path.name? → after.slot? output.path ≠ none →
    after.readText output.path = .ok document.text

section

variable {output : Output} {before middle after files : FileSystem} {place : Place}
  {text : String}

theorem Holds.readText (holds : output.Holds place text files)
    (last : output.path.segments.getLast? = output.path.name?)
    (some : files.slot? output.path ≠ none) : files.readText output.path = .ok text := by
  rcases Option.ne_none_iff_exists'.1 some with ⟨other, found⟩
  cases holds.only other found
  apply FileSystem.readText_eq_ok_iff.2
  exact readContent_of_node? last (node?_eq_some_iff.2 ⟨place, found, holds.node⟩)

theorem Untouched.refl (output : Output) (files : FileSystem) : output.Untouched files files where
  entry _ found := ⟨found, rfl⟩
  origin _ _ _ _ := Iff.rfl
  content _ read := read

/-! ## Before the commit -/

theorem untouched_of_makeDirectories (notBackups : output.path.name? ≠ some "backups") :
    output.Untouched before (before.makeDirectories output.backups).2 := by
  have extended := before.extends_makeDirectories output.backups
  constructor
  case entry =>
    intro place found
    refine ⟨extended.includes.slot?_eq found, ?_⟩
    rcases FileSystem.slot?_eq_some_iff.1 found with
      ⟨name, directory, -, located, isDirectory, -⟩
    apply FileSystem.makeDirectories_child output.path.directory_ne_empty located isDirectory
      isName_backups
    intro same
    apply notBackups
    rw [← FileSystem.getLast?_of_slot? found, same, List.getLast?_concat]
  case origin =>
    intro place entry _ notDirectory
    exact extended.entry_iff notDirectory
  case content =>
    intro content read
    rcases FileSystem.readContent_eq_ok_iff.1 read with ⟨place, located, file⟩
    have still := extended.kept_node file
    apply FileSystem.readContent_eq_ok_iff.2
    exact ⟨place, extended.includes.locate_eq (by simp [still]) located, still⟩

/-- Opening the output makes at most directories. -/
theorem perform_prepare (path : Path) (files : FileSystem) :
    ((perform (prepare path) files).2 = files ∨
        (perform (prepare path) files).2 =
          (files.makeDirectories (Output.mk path).backups).2) ∧
      ∀ output, (perform (prepare path) files).1 = .ok output → output = ⟨path⟩ := by
  -- what is left to do once the directory of the backups is there
  have marked (files : FileSystem) :
      (perform (do
        if ← look (·.isReadOnly (Output.mk path).backups) then
          throw (.backupsNotWritable (Output.mk path).backups)
        return Output.mk path) files).2 = files ∧
      ∀ output, (perform (do
        if ← look (·.isReadOnly (Output.mk path).backups) then
          throw (.backupsNotWritable (Output.mk path).backups)
        return Output.mk path) files).1 = .ok output → output = ⟨path⟩ := by
    rw [perform_bind, perform_look]
    cases files.isReadOnly (Output.mk path).backups with
    | error fault => exact ⟨rfl, nofun⟩
    | ok isReadOnly =>
        cases isReadOnly with
        | false =>
            refine ⟨rfl, ?_⟩
            intro output same
            cases same
            rfl
        | true => exact ⟨rfl, nofun⟩
  simp only [prepare, perform_bind, perform_get]
  cases files.isPresent (Output.mk path).backups with
  | true => exact ⟨Or.inl (marked files).1, (marked files).2⟩
  | false =>
      simp only [Bool.false_eq_true, if_false, perform_bind, perform_get, perform_set]
      cases made : files.makeDirectories (Output.mk path).backups with
      | mk outcome middle =>
          cases outcome with
          | error fault => exact ⟨Or.inr rfl, nofun⟩
          | ok _ => exact ⟨Or.inr (marked middle).1, (marked middle).2⟩

/-- An output is opened as it is where its backups have a directory. -/
theorem perform_prepare_of_directory {path : Path}
    (located : files.locate true (Output.mk path).backups = .ok place)
    (there : files.entryAt? place = some { node := .directory }) :
    perform (prepare path) files = (.ok ⟨path⟩, files) := by
  have found : files.find (Output.mk path).backups = .ok { node := .directory } :=
    FileSystem.find_eq_ok_iff.2 ⟨place, located, there⟩
  have present := FileSystem.isPresent_iff.2 ⟨_, found⟩
  have writable : files.isReadOnly (Output.mk path).backups = .ok false := by
    rw [FileSystem.isReadOnly, found]
    rfl
  simp only [prepare, perform_bind, perform_get, present, if_true, perform_pure, perform_look,
    writable, Except.mapError, Bool.false_eq_true, if_false]

/-- A directory for the backups is made where only that is missing. -/
theorem perform_prepare_of_vacant {path : Path}
    (slot : files.slot? (Output.mk path).backups = some place)
    (vacant : files.entryAt? place = none) :
    perform (prepare path) files = (.ok ⟨path⟩, files.put place { node := .directory }) := by
  have last : (Output.mk path).backups.segments.getLast? = (Output.mk path).backups.name? := by
    rcases path.directory.segments_child isName_backups with ⟨-, front, split, -⟩
    have ends : (Output.mk path).backups.segments.getLast? = some "backups" := by
      rw [backups, split, List.getLast?_concat]
    rw [ends, Path.name?_of_getLast? ends isName_backups]
  have some_ : place ≠ [] := by
    rintro rfl
    simp [FileSystem.entryAt?] at vacant
  have none := FileSystem.nodeAt?_eq_none_iff.2 vacant
  have absent := FileSystem.isPresent_of_vacant slot last vacant
  have made := FileSystem.makeDirectories_of_vacant
    (FileSystem.locate_of_slot slot last (by simp)) vacant
  have there : (files.put place { node := .directory }).entryAt? place =
      some { node := .directory } := FileSystem.entryAt?_put_self some_
  have opened : (files.put place { node := .directory }).locate true (Output.mk path).backups =
      .ok place :=
    FileSystem.locate_of_slot ((FileSystem.includes_put (.inl none) _).slot?_eq slot) last
      (by simp [FileSystem.nodeAt?_put_self some_])
  have found := FileSystem.find_eq_ok_iff.2 ⟨place, opened, there⟩
  have writable : (files.put place { node := .directory }).isReadOnly (Output.mk path).backups =
      .ok false := by
    rw [FileSystem.isReadOnly, found]
    rfl
  simp only [prepare, perform_bind, perform_get, absent, Bool.false_eq_true, if_false, made,
    perform_set, perform_pure, perform_look, writable, Except.mapError]

/-- Opening an output adds at most directories. -/
theorem extends_prepare (path : Path) (files : FileSystem) :
    (perform (prepare path) files).2.Extends files := by
  rcases (perform_prepare path files).1 with same | made
  · rw [same]
    exact .refl files
  · rw [made]
    exact files.extends_makeDirectories _

theorem untouched_of_prepare (before : FileSystem) {path : Path}
    (notBackups : path.name? ≠ some "backups") :
    Untouched ⟨path⟩ before (perform (prepare path) before).2 := by
  rcases (perform_prepare path before).1 with same | made
  · rw [same]
    exact .refl _ before
  · rw [made]
    exact untouched_of_makeDirectories notBackups

/-- A copy of the output that is written somewhere does not change the output. -/
theorem Untouched.write (untouched : output.Untouched before middle)
    (read : middle.readText output.path = .ok text) {path : Path}
    (written : middle.write path text.toUTF8 = .ok after) : output.Untouched before after := by
  rcases FileSystem.write_eq_ok written with ⟨copy, mark, -, ends, marked, rfl⟩
  have notRoot := FileSystem.ne_nil_of_not_directory ends.ne_directory
  have opens := FileSystem.includes_put ends { node := .file text.toUTF8, isReadOnly := mark }
  have closes : middle.Includes
      (middle.put copy { node := .file text.toUTF8, isReadOnly := mark }) :=
    FileSystem.includes_of_put notRoot text.toUTF8 mark
  rcases FileSystem.readContent_eq_ok_iff.1 (FileSystem.readText_eq_ok_iff.1 read) with
    ⟨source, located, file⟩
  -- where the copy is the output itself, its text is the one that is there
  have same (place : Place) (found : middle.slot? output.path = some place) :
      (middle.put copy { node := .file text.toUTF8, isReadOnly := mark }).entryAt? place =
        middle.entryAt? place := by
    by_cases self : place = copy
    · rw [self] at found ⊢
      have source_eq : source = copy :=
        FileSystem.eq_of_locate_of_slot found ends.ne_directory ends.ne_link located
      rw [source_eq, FileSystem.nodeAt?, Option.map_eq_some_iff] at file
      rcases file with ⟨entry, there, node⟩
      rw [there, FileSystem.entryAt?_put_self notRoot, ← marked entry there, ← node]
    · exact FileSystem.entryAt?_put_of_ne self
  constructor
  case entry =>
    intro place found
    rcases untouched.entry place found with ⟨still, entry⟩
    exact ⟨opens.slot?_eq still, (same place still).trans entry⟩
  case origin =>
    intro place entry found notDirectory
    have still := closes.slot?_eq found
    rw [same place still]
    exact untouched.origin place entry still notDirectory
  case content =>
    intro content first
    rcases FileSystem.readContent_eq_ok_iff.1 (untouched.content content first) with
      ⟨place, reached, there⟩
    rw [located, Except.ok.injEq] at reached
    subst reached
    apply FileSystem.readContent_eq_ok_iff.2
    by_cases self : source = copy
    · refine ⟨source, opens.locate_eq ?_ located, ?_⟩
      · simp [self, FileSystem.nodeAt?_put_self notRoot]
      · rw [self, FileSystem.nodeAt?_put_self notRoot, ← file, there]
    · refine ⟨source, opens.locate_eq ?_ located, ?_⟩
      · simp [FileSystem.nodeAt?_put_of_ne self, file]
      · rw [FileSystem.nodeAt?_put_of_ne self, there]

theorem Untouched.backUp (untouched : output.Untouched before middle) (now : Timestamp) :
    output.Untouched before (perform (output.backUp now) middle).2 := by
  cases performed : perform (output.backUp now) middle with
  | mk outcome after =>
      rcases perform_backUp performed with ⟨-, same⟩ | ⟨text, name, -, read, written, -⟩
      · exact same ▸ untouched
      · exact untouched.write read written

theorem includes_of_backUp (output : Output) (now : Timestamp) (files : FileSystem) :
    files.Includes (perform (output.backUp now) files).2 := by
  cases performed : perform (output.backUp now) files with
  | mk outcome after =>
      rcases perform_backUp performed with ⟨-, same⟩ | ⟨text, name, -, -, written, -⟩
      · exact same ▸ .refl files
      · rcases FileSystem.write_eq_ok written with ⟨copy, mark, -, ends, -, same⟩
        rw [same]
        exact FileSystem.includes_of_put
          (FileSystem.ne_nil_of_not_directory ends.ne_directory) _ mark

/-- What is put in place of the output is there in its stead. -/
theorem holds_put (found : files.slot? output.path = some place)
    (other : files.nodeAt? place ≠ some .directory) (mark : Bool) :
    output.Holds place text
      (files.put place { node := .file text.toUTF8, isReadOnly := mark }) := by
  have notRoot := FileSystem.ne_nil_of_not_directory other
  refine ⟨FileSystem.nodeAt?_put_self notRoot, ?_⟩
  intro other again
  have before := (FileSystem.includes_of_put notRoot _ mark).slot?_eq again
  rw [found, Option.some.injEq] at before
  exact before.symm

theorem perform_replace_eq_ok
    (performed : perform (output.replace text) middle = (.ok (), after)) :
    ∃ place mark, middle.slot? output.path = some place ∧
      middle.nodeAt? place ≠ some .directory ∧
        after = middle.put place { node := .file text.toUTF8, isReadOnly := mark } := by
  rw [replace, perform_change] at performed
  cases replaced : middle.replace output.path text.toUTF8 with
  | error fault =>
      rw [replaced] at performed
      cases performed
  | ok written =>
      rw [replaced] at performed
      cases performed
      exact FileSystem.replace_eq_ok replaced

theorem perform_replace_eq_error {error : OutputError}
    (performed : perform (output.replace text) middle = (.error error, after)) :
    after = middle := by
  rw [replace, perform_change] at performed
  cases replaced : middle.replace output.path text.toUTF8 with
  | error fault =>
      rw [replaced] at performed
      cases performed
      rfl
  | ok written =>
      rw [replaced] at performed
      cases performed

end

end Output

namespace Transaction

open Output

variable {output : Output} {transaction : Transaction} {before middle after : FileSystem}
  {place : Place} {text : String}

/-- A transaction begins with at most a backup. -/
theorem perform_start (output : Output) (now : Timestamp) (files : FileSystem) :
    ((perform (start output now) files).2 = files ∨
        (perform (start output now) files).2 = (perform (output.backUp now) files).2) ∧
      ∀ transaction, (perform (start output now) files).1 = .ok transaction →
        transaction.output = output := by
  rw [start, perform_bind, perform_isPresent]
  cases files.isPresent output.path with
  | false =>
      refine ⟨Or.inl rfl, ?_⟩
      intro transaction same
      cases same
      rfl
  | true =>
      simp only [if_true, perform_bind]
      cases perform (output.backUp now) files with
      | mk outcome after =>
          cases outcome with
          | error error => exact ⟨Or.inr rfl, nofun⟩
          | ok backup =>
              refine ⟨Or.inr rfl, ?_⟩
              intro transaction same
              cases same
              rfl

/-! ## The commit -/

/-- A commit fails and changes nothing, or replaces the output by a document without errors. -/
theorem perform_commitDocument_cases {document : Document}
    {outcome : Except OutputError Transaction}
    (performed : perform (transaction.commitDocument document) middle = (outcome, after)) :
    (∃ error, outcome = .error error) ∧ after = middle ∨
      document.errors = [] ∧ (∃ committed, outcome = .ok committed) ∧
        perform (transaction.output.replace document.text) middle = (.ok (), after) := by
  cases errors : document.errors with
  | cons first more =>
      simp only [commitDocument, errors, perform_throw, Prod.mk.injEq] at performed
      exact Or.inl ⟨⟨_, performed.1.symm⟩, performed.2.symm⟩
  | nil =>
      simp only [commitDocument, errors, commit] at performed
      cases committed : transaction.isCommitted with
      | true =>
          simp only [committed] at performed
          cases performed
          exact Or.inl ⟨⟨_, rfl⟩, rfl⟩
      | false =>
          simp only [committed, Bool.false_eq_true, if_false, perform_bind] at performed
          rcases replaced : perform (transaction.output.replace document.text) middle with
            ⟨_ | _, written⟩
          · rw [replaced] at performed
            cases performed
            exact Or.inl ⟨⟨_, rfl⟩, perform_replace_eq_error replaced⟩
          · rw [replaced] at performed
            cases performed
            exact Or.inr ⟨rfl, ⟨_, rfl⟩, rfl⟩

theorem perform_commitDocument {document : Document} {outcome : Except OutputError Transaction}
    (performed : perform (transaction.commitDocument document) middle = (outcome, after)) :
    (∃ error, outcome = .error error) ∧ after = middle ∨
      document.errors = [] ∧ ∃ place, middle.slot? transaction.output.path = some place ∧
        transaction.output.Holds place document.text after ∧
          ∃ committed, outcome = .ok committed := by
  rcases perform_commitDocument_cases performed with failed | ⟨sound, committed, replaced⟩
  · exact Or.inl failed
  · rcases perform_replace_eq_ok replaced with ⟨place, mark, found, other, rfl⟩
    exact Or.inr ⟨sound, place, found, holds_put found other mark, committed⟩

end Transaction

namespace Output

variable {output : Output} {place : Place} {text : String}

/-! ## After the commit -/

theorem keeps_holds_prune (named : place.getLast? = output.path.name?) (keep : Nat) :
    Keeps (output.Holds place text) (output.prune keep) := by
  apply keeps_prune
  rintro path files after ⟨name, rfl, isName, different⟩ holds removed
  rcases FileSystem.remove_eq_ok removed with ⟨gone, located, other, -, rfl⟩
  rcases FileSystem.exists_of_locate_child_false output.backups_ne_empty isName located with
    ⟨directory, -, rfl⟩
  have apart : place ≠ directory ++ [name] := by
    intro same
    rw [same, List.getLast?_concat] at named
    exact different named.symm
  constructor
  · rw [FileSystem.nodeAt?_erase_of_ne apart]
    exact holds.node
  · intro other found
    exact holds.only other ((FileSystem.includes_of_erase (by simp)).slot?_eq found)

end Output

namespace BuildRequest

variable {request : BuildRequest} {environment : Environment} {now : Timestamp}
  {before after : FileSystem} {outcome : Except OutputError BuildSummary}

/-- The output of a build. -/
def target (request : BuildRequest) (environment : Environment) (spec : Spec) : Output :=
  ⟨.ofText (spec.outputPath environment request.output)⟩

theorem perform_load (path : Path) (files : FileSystem) :
    (perform (Spec.load path) files).2 = files := by
  have rest : Keeps (· = files) (do
      let text ← look (·.readText path)
      FileTask.ofExcept ((Spec.ofText text).mapError fun error => .spec (.unreadable error))) :=
    Keeps.bind (Keeps.look _) fun text => Keeps.ofExcept _
  have kept : Keeps (· = files) (Spec.load path) := by
    refine Keeps.bind Keeps.get fun seen => ?_
    cases seen.isPresent path with
    | true => exact rest
    | false => exact Keeps.throw _
  exact kept files rfl

/-- A spec file that can be read is loaded. -/
theorem perform_load_eq {path : Path} {files : FileSystem} {text : String} {spec : Spec}
    (read : files.readText path = .ok text) (parsed : Spec.ofText text = .ok spec) :
    perform (Spec.load path) files = (.ok spec, files) := by
  have present := FileSystem.isPresent_of_readContent (FileSystem.readText_eq_ok_iff.1 read)
  simp only [Spec.load, perform_bind, perform_get, present, if_true, perform_look, read,
    Except.mapError, parsed, perform_ofExcept]

theorem perform_transaction (request : BuildRequest) (output : Output) (now : Timestamp)
    (files : FileSystem) :
    ((perform (request.transaction output now) files).2 = files ∨
        (perform (request.transaction output now) files).2 =
          (perform (output.backUp now) files).2) ∧
      ∀ transaction, (perform (request.transaction output now) files).1 = .ok transaction →
        transaction.output = output := by
  rw [transaction]
  cases request.takesBackup with
  | true => exact Transaction.perform_start output now files
  | false =>
      refine ⟨Or.inl rfl, ?_⟩
      intro transaction same
      cases same
      rfl

/-- Taking the output for a build as it was opened, with or without a backup. -/
theorem untouched_of_transaction {output : Output} {middle : FileSystem}
    (untouched : output.Untouched before middle) (request : BuildRequest) (now : Timestamp) :
    output.Untouched before (perform (request.transaction output now) middle).2 ∧
      middle.Includes (perform (request.transaction output now) middle).2 := by
  rcases (perform_transaction request output now middle).1 with same | copied
  · rw [same]
    exact ⟨untouched, .refl middle⟩
  · rw [copied]
    exact ⟨untouched.backUp now, Output.includes_of_backUp output now middle⟩

/-- Where the output is found once it has been opened, the document is published. -/
theorem published_of_holds {path : Path} {document : Document} {place : Place}
    {before prepared started files : FileSystem}
    (prepare : (perform (Output.prepare path) before).2 = prepared)
    (untouched : Output.Untouched ⟨path⟩ before started)
    (opened : prepared.slot? path = some place) (found : started.slot? path = some place)
    (sound : document.errors = []) (holds : Output.Holds ⟨path⟩ place document.text files) :
    Output.Published ⟨path⟩ document before files := by
  refine ⟨sound, ⟨place, ?_, ?_, holds⟩, holds.readText⟩
  · intro other there
    have still := (untouched.entry other there).1
    rw [found, Option.some.injEq] at still
    exact still.symm
  · rw [prepare]
    exact opened

/-- From the opening of the output to the last backup that is removed. -/
theorem perform_publishing {path : Path} {document : Document} {keep : Nat}
    {summary : Output → Transaction → Nat → BuildSummary}
    (counted : ∀ output transaction count,
      (summary output transaction count).removedBackups = count)
    (performed : perform (do
      let output ← Output.prepare path
      let transaction ← request.transaction output now
      let _ ← transaction.commitDocument document
      let count ← output.prune keep
      return summary output transaction count) before = (outcome, after))
    (notBackups : path.name? ≠ some "backups") :
    (∃ error, outcome = .error error) ∧ Output.Untouched ⟨path⟩ before after ∨
      ∃ written, Output.Published ⟨path⟩ document before written ∧
        Output.Published ⟨path⟩ document before after ∧
          perform (Output.prune ⟨path⟩ keep) written =
            (outcome.map BuildSummary.removedBackups, after) := by
  have opening := Output.untouched_of_prepare before notBackups
  have opened := (Output.perform_prepare path before).2
  rw [perform_bind_eq_iff] at performed
  rcases performed with ⟨error, failed, same⟩ | ⟨output, prepared, prepare, performed⟩
  · rw [failed] at opening
    exact Or.inl ⟨⟨error, same⟩, opening⟩
  rw [prepare] at opening opened
  cases opened output rfl
  have beginning := untouched_of_transaction opening request now
  have begun := (perform_transaction request ⟨path⟩ now prepared).2
  rw [perform_bind_eq_iff] at performed
  rcases performed with ⟨error, failed, same⟩ | ⟨transaction, started, start, performed⟩
  · rw [failed] at beginning
    exact Or.inl ⟨⟨error, same⟩, beginning.1⟩
  rw [start] at beginning begun
  have output_eq := begun transaction rfl
  rw [perform_bind_eq_iff] at performed
  rcases performed with ⟨error, failed, same⟩ | ⟨done, written, commit, performed⟩
  · rcases Transaction.perform_commitDocument failed with
      ⟨-, unchanged⟩ | ⟨-, -, -, -, committed, impossible⟩
    · rw [unchanged]
      exact Or.inl ⟨⟨error, same⟩, beginning.1⟩
    · cases impossible
  · rcases Transaction.perform_commitDocument commit with
      ⟨⟨error, impossible⟩, -⟩ | ⟨sound, place, found, holds, -⟩
    · cases impossible
    rw [output_eq] at found holds
    have slot := beginning.2.slot?_eq found
    have published {files : FileSystem}
        (holds : Output.Holds ⟨path⟩ place document.text files) :
        Output.Published ⟨path⟩ document before files :=
      published_of_holds (congrArg Prod.snd prepare) beginning.1 slot found sound holds
    have kept := Output.keeps_holds_prune (FileSystem.getLast?_of_slot? found) keep written holds
    refine Or.inr ⟨written, published holds, ?_⟩
    rw [perform_bind] at performed
    cases pruned : perform (Output.prune ⟨path⟩ keep) written with
    | mk removed left =>
        rw [pruned] at performed kept
        cases removed with
        | error error =>
            cases performed
            exact ⟨published kept, rfl⟩
        | ok count =>
            cases performed
            refine ⟨published kept, ?_⟩
            rw [Except.map, counted]

/--
A build that fails has left the output as it was, and one that succeeds has
published the document of the spec file.  Only if an old backup cannot be
removed does a build fail after it has published the document.
-/
theorem run_publishes_all_or_nothing
    (performed : perform (request.run environment now) before = (outcome, after))
    (notBackups : ∀ spec, perform (Spec.load request.spec) before = (.ok spec, before) →
      (request.target environment spec).path.name? ≠ some "backups") :
    (∃ error, outcome = .error error) ∧
        (after = before ∨
          ∃ spec, perform (Spec.load request.spec) before = (.ok spec, before) ∧
            (request.target environment spec).Untouched before after) ∨
      ∃ spec document written,
        perform (Spec.load request.spec) before = (.ok spec, before) ∧
          spec.document = .ok document ∧
            (request.target environment spec).Published document before written ∧
            (request.target environment spec).Published document before after ∧
            perform ((request.target environment spec).prune spec.keepBackups) written =
              (outcome.map BuildSummary.removedBackups, after) := by
  rw [run, perform_bind_eq_iff] at performed
  rcases performed with ⟨error, failed, same⟩ | ⟨spec, loaded, load, performed⟩
  · have kept := perform_load request.spec before
    rw [failed] at kept
    exact Or.inl ⟨⟨error, same⟩, Or.inl kept⟩
  · have kept := perform_load request.spec before
    rw [load] at kept
    change loaded = before at kept
    rw [kept] at load performed
    have name := notBackups spec load
    rw [Spec.compiled, perform_bind, perform_ofExcept] at performed
    cases compiled : spec.document with
    | error error =>
        simp only [compiled, Except.mapError, Prod.mk.injEq] at performed
        exact Or.inl ⟨⟨_, performed.1.symm⟩, Or.inl performed.2.symm⟩
    | ok document =>
        simp only [compiled, Except.mapError] at performed
        rcases perform_publishing (fun _ _ _ => rfl) performed name with
          ⟨failed, untouched⟩ | ⟨written, first, last, pruned⟩
        · exact Or.inl ⟨failed, Or.inr ⟨spec, load, untouched⟩⟩
        · exact Or.inr ⟨spec, document, written, load, compiled, first, last, pruned⟩

end BuildRequest

/-! ## A build over an older output -/

namespace Sample

def folder : FileSystem where
  entries :=
    [(["spec.toml"], { node := .file "".toUTF8 }), (["out.json"], { node := .file "old".toUTF8 })]

/-- A spec file without any content is built into the older output. -/
def build : BuildRequest where
  spec := .ofText "spec.toml"
  output := some "out.json"
  takesBackup := false

def buildTime : Timestamp := ⟨2024, 2, 29, 12, 0, 0⟩

def emptyDocument : Document where
  global := []
  profiles := [{ name := "Default", selected := some true, rules := [] }]

/-- The spec file is read for what its statements make. -/
theorem perform_load_spec {files : FileSystem} (home : files.workingPlace = []) {text : String}
    (file : files.nodeAt? ["spec.toml"] = some (.file text.toUTF8))
    {statements : List Toml.Statement} (read : Toml.statements? text.toList = some statements)
    (unmarked : text.toList.head? ≠ some '\ufeff') {spec : Spec}
    (built : (Toml.ofStatements? statements).bind Spec.ofToml? = some spec) :
    perform (Spec.load (.ofText "spec.toml")) files = (.ok spec, files) := by
  have slot : files.slot? (.ofText "spec.toml") = some ["spec.toml"] :=
    slot?_alone (by decide) (by decide) home
  exact BuildRequest.perform_load_eq (FileSystem.readText_of_slot? slot (by decide) file)
    (Spec.ofText_of_statements read unmarked built)

theorem perform_load_folder :
    perform (Spec.load (.ofText "spec.toml")) folder = (.ok {}, folder) := by
  have empty : Toml.statements? "".toList = some [] := by with_unfolding_all rfl
  exact perform_load_spec rfl rfl empty (by decide) rfl

theorem emptyDocument_eq : Spec.document {} = .ok emptyDocument := by decide +kernel

theorem outputPath_build :
    Spec.outputPath {} ⟨[]⟩ (some "out.json") = "out.json" := by decide +kernel

/-- The files once the directory of the backups is there. -/
def opened : FileSystem :=
  folder.put ["backups"] { node := .directory }

theorem perform_prepare_folder :
    perform (Output.prepare (.ofText "out.json")) folder =
      (.ok ⟨.ofText "out.json"⟩, opened) :=
  Output.perform_prepare_of_vacant (slot?_backups rfl) rfl

theorem isOk_build : (perform (build.run ⟨[]⟩ buildTime) folder).1.isOk = true := by
  have sound : emptyDocument.errors = [] := by decide +kernel
  have replaced (content : ByteArray) :
      opened.replace (.ofText "out.json") content =
        .ok (opened.put ["out.json"] { node := .file content }) :=
    FileSystem.replace_of_file (slot?_archived rfl) rfl content
  have pruned (content : ByteArray) :
      perform (Output.prune ⟨.ofText "out.json"⟩ 10)
        (opened.put ["out.json"] { node := .file content }) =
          (.ok 0, opened.put ["out.json"] { node := .file content }) := by
    have names : (opened.put ["out.json"] { node := .file content }).names archived.backups =
        .ok [] :=
      names_backups rfl rfl
    exact Output.perform_prune_of_few name_archived names (Nat.zero_le 10)
  simp only [BuildRequest.run, build, perform_bind, perform_load_folder, Spec.compiled,
    emptyDocument_eq, Except.mapError, perform_ofExcept, outputPath_build,
    perform_prepare_folder, BuildRequest.transaction, Transaction.startWithoutBackup,
    Output.perform_isPresent, Transaction.commitDocument, sound, Transaction.commit,
    Output.replace, perform_change, replaced, perform_pure, Bool.false_eq_true, if_false,
    Spec.keepBackups, Option.getD_none, Spec.defaultKeepBackups, pruned]
  rfl

theorem build_publishes :
    ∃ written, Output.Published ⟨.ofText "out.json"⟩ emptyDocument folder written ∧
      Output.Published ⟨.ofText "out.json"⟩ emptyDocument folder
        (perform (build.run ⟨[]⟩ buildTime) folder).2 := by
  have notBackups (spec : Spec)
      (loaded : perform (Spec.load build.spec) folder = (.ok spec, folder)) :
      (build.target ⟨[]⟩ spec).path.name? ≠ some "backups" := by
    rw [build, perform_load_folder] at loaded
    cases loaded
    rw [BuildRequest.target, build, outputPath_build]
    decide
  have ok := isOk_build
  cases ran : perform (build.run ⟨[]⟩ buildTime) folder with
  | mk outcome after =>
      rw [ran] at ok
      rcases BuildRequest.run_publishes_all_or_nothing ran notBackups with
        ⟨⟨error, rfl⟩, -⟩ | ⟨spec, document, written, loaded, compiled, first, last, -⟩
      · cases ok
      · rw [build, perform_load_folder] at loaded
        cases loaded
        rw [emptyDocument_eq] at compiled
        cases compiled
        rw [BuildRequest.target, build, outputPath_build] at first last
        exact ⟨written, first, last⟩

end Sample

end KeyLayers
