import KeyLayers.Proofs.Output.Steps

/-!
# Rolling back

Whatever has been done to an output since the beginning of a transaction, the backup that
the rollback reads is the one from the beginning or is gone, and the output is where it
was.

The output is what its name stands for in its directory (`Output.node?`): that is what
a commit replaces.  Whether there is anything to bring back is asked of the path, which
does not lead to a file that is followed by a slash.  So what is brought back is what was
there only if the path ends in the name (`Output.Recovered`); if it does not, a rollback
changes nothing and a commit cannot be undone (`Sample.slashed_rollback_loses_output`).
-/

namespace KeyLayers

open FileTask

namespace Output

/-! ## An output that was not there -/

section

variable {output : Output} {before files after : FileSystem} {path : Path}

/-- A path that ends in its name leads to what the name stands for, unless that is a link. -/
theorem isPresent_of_node? {node : Node}
    (last : output.path.segments.getLast? = output.path.name?)
    (found : output.node? files = some node) (notLink : ∀ target, node ≠ .link target) :
    files.isPresent output.path = true := by
  rcases node?_eq_some_iff.1 found with ⟨place, slot, there⟩
  have located : files.locate true output.path = .ok place := by
    apply FileSystem.locate_of_slot slot last
    intro _ target link
    exact notLink target (Option.some.inj (there.symm.trans link))
  rcases Option.map_eq_some_iff.1 there with ⟨entry, here, -⟩
  exact FileSystem.isPresent_iff.2 ⟨entry, FileSystem.find_eq_ok_iff.2 ⟨place, located, here⟩⟩

/-- A path that goes on after the name of a file leads nowhere. -/
theorem isPresent_of_beyond (grounded : files.Grounded files.workingPlace) {content : ByteArray}
    (beyond : output.path.segments.getLast? ≠ output.path.name?)
    (found : output.node? files = some (.file content)) :
    files.isPresent output.path = false := by
  rcases node?_eq_some_iff.1 found with ⟨place, slot, file⟩
  rw [Bool.eq_false_iff, ne_eq, FileSystem.isPresent_iff]
  rintro ⟨entry, there⟩
  rcases FileSystem.find_eq_ok_iff.1 there with ⟨other, located, -⟩
  have same : other = place :=
    FileSystem.eq_of_locate_of_slot slot (by simp [file]) (by simp [file]) located
  exact beyond (getLast?_of_locate grounded located (by simp [same, file]))

theorem node?_eq_none (last : output.path.segments.getLast? = output.path.name?)
    (absent : files.isPresent output.path = false)
    (unlinked : ∀ target, output.node? files ≠ some (.link target)) :
    output.node? files = none := by
  by_contra some
  rcases Option.ne_none_iff_exists'.1 some with ⟨node, found⟩
  have present := isPresent_of_node? last found fun target same => unlinked target (same ▸ found)
  rw [absent] at present
  cases present

/-- The output is a link only if it was one. -/
theorem Evolved.node?_ne_link (evolved : Evolved before files)
    (unlinked : ∀ target, output.node? before ≠ some (.link target)) (target : Path) :
    output.node? files ≠ some (.link target) := by
  intro link
  rcases node?_eq_some_iff.1 link with ⟨place, slot, there⟩
  apply unlinked target
  exact node?_eq_some_iff.2
    ⟨place, evolved.includes.slot?_eq slot, evolved.includes.link place target there⟩

/-- A path leads to nothing once what it led to has been removed. -/
theorem isPresent_of_remove (grounded : files.Grounded files.workingPlace)
    (removed : files.remove path = .ok after) : after.isPresent path = false := by
  rcases FileSystem.remove_eq_ok removed with ⟨place, located, other, -, rfl⟩
  have notEmpty := ne_empty_of_locate located
  have notRoot := FileSystem.ne_nil_of_not_directory other
  rw [FileSystem.locate_eq_walk notEmpty] at located
  rcases FileSystem.exists_of_walk_not_directory (grounded_origin grounded path) located other
    with ⟨above, name, directory, left, split, named, way, last⟩
  rw [FileSystem.walk_last named (by simp)] at last
  cases last
  rw [Bool.eq_false_iff]
  intro present
  rcases FileSystem.isPresent_iff.1 present with ⟨entry, found⟩
  rcases FileSystem.find_eq_ok_iff.1 found with ⟨again, relocated, there⟩
  rw [FileSystem.locate_eq_walk notEmpty, split] at relocated
  rcases FileSystem.way_of_walk (by simp) relocated with ⟨rest, reached, shorter⟩
  -- the way that is left was there before, so it leads to the same directory
  have before := shorter.of_includes (FileSystem.includes_of_erase notRoot)
  have same : reached = directory := FileSystem.walk_unique before.walk_eq way.walk_eq
  have gone : (files.erase (directory ++ [name])).nodeAt? (directory ++ [name]) = none :=
    FileSystem.nodeAt?_erase_self notRoot
  rw [shorter.walk_append (Or.inr (by simp)), same, FileSystem.walk_last named (by
    rw [gone]; simp)] at relocated
  cases relocated
  rw [FileSystem.nodeAt?_of_entryAt? there] at gone
  cases gone

end

/-! ## Putting the text back -/

section

variable {output : Output} {before files : FileSystem} {directory place : Place}
  {name text : String}

/-- A way is left as it is by a new file, unless it goes over a link at that place. -/
theorem way_put {links left : Nat} {start last : Place} {segments : List String}
    (way : FileSystem.Way files links start segments left last) (some : place ≠ [])
    (content : ByteArray) (mark : Bool) (grounded : files.Grounded start)
    (notDirectory : files.nodeAt? place ≠ Option.some .directory) :
    FileSystem.Way (files.put place { node := .file content, isReadOnly := mark }) links start
        segments left last ∨
      ∃ above segment target links left last, place = above ++ [segment] ∧
        files.nodeAt? place = Option.some (.link target) ∧ files.Grounded above ∧
          FileSystem.Way files links (if target.isAbsolute then [] else above) target.segments
            left last := by
  induction way with
  | here links start => exact Or.inl (.here links start)
  | idle idle way ih =>
      rcases ih grounded with kept | passed
      · exact Or.inl (.idle idle kept)
      · exact Or.inr passed
  | up way ih =>
      rcases ih grounded.dropLast with kept | passed
      · exact Or.inl (.up kept)
      · exact Or.inr passed
  | enter named node way ih =>
      rcases ih (grounded.enter node) with kept | passed
      · refine Or.inl (.enter named ?_ kept)
        rwa [FileSystem.nodeAt?_put_of_ne]
        rintro rfl
        exact notDirectory node
      · exact Or.inr passed
  | @follow links left start last segment rest target named node way ih =>
      by_cases same : start ++ [segment] = place
      · rcases way.split with ⟨between, middle, first, -⟩
        exact Or.inr ⟨start, segment, target, links, between, middle, same.symm, same ▸ node,
          grounded, first⟩
      · have onward : files.Grounded (if target.isAbsolute then [] else start) := by
          split
          · exact files.grounded_root
          · exact grounded
        rcases ih onward with kept | passed
        · refine Or.inl (.follow named ?_ kept)
          rwa [FileSystem.nodeAt?_put_of_ne same]
        · exact Or.inr passed

/-- A way does not go over an output that is read, so it is there when the output is replaced. -/
theorem way_put_output {links left : Nat} {start last : Place} {segments : List String}
    (evolved : Evolved before files) (grounded : before.Grounded before.workingPlace)
    (read : before.readText output.path = .ok text)
    (found : files.slot? output.path = some place)
    (other : files.nodeAt? place ≠ some .directory)
    (way : FileSystem.Way files links start segments left last) (within : files.Grounded start)
    (content : ByteArray) (mark : Bool) :
    FileSystem.Way (files.put place { node := .file content, isReadOnly := mark }) links start
      segments left last := by
  rcases way_put way (FileSystem.ne_nil_of_not_directory other) content mark within other with
    kept | ⟨middle, segment, target, links, rest, end_, split, link, inside, passed⟩
  · exact kept
  -- the link on the way is the output, which would then have led to a directory
  rcases FileSystem.slot?_eq_some_iff.1 found with
    ⟨name, above, named, reached, isDirectory, same⟩
  rcases FileSystem.readContent_eq_ok_iff.1 (FileSystem.readText_eq_ok_iff.1 read) with
    ⟨source, located, file⟩
  have notDirectory : before.nodeAt? source ≠ some .directory := by simp [file]
  rcases exists_of_locate_output named grounded located notDirectory with
    ⟨-, home, first, earlier, -, final⟩
  rcases List.append_inj' (split.symm.trans same) rfl with ⟨rfl, segment_eq⟩
  have reachedBefore : before.locate true output.path.directory = .ok middle := by
    apply evolved.includes.locate_eq _ reached
    simp [evolved.includes.directory _ isDirectory]
  rw [earlier] at reachedBefore
  cases reachedBefore
  have groundedAbove : before.Grounded (if target.isAbsolute then [] else middle) := by
    split
    · exact before.grounded_root
    · exact fun above within => evolved.includes.directory above (inside above within)
  have earlierWay := passed.of_includes evolved.includes
  have directory := (earlierWay.grounded groundedAbove).directory
  rw [FileSystem.walk_name (Path.segments_of_name named).1, ← same,
    evolved.includes.link place target link] at final
  simp only [List.isEmpty_nil, Bool.not_true, Bool.and_false, Bool.false_eq_true, if_false,
    List.append_nil] at final
  cases first with
  | zero => cases final
  | succ first =>
      rw [FileSystem.walk_unique earlierWay.walk_eq final] at directory
      exact absurd directory notDirectory

/-- Directories are found where they were when an output that is read is replaced. -/
theorem locate_put_output {path : Path} (evolved : Evolved before files)
    (grounded : before.Grounded before.workingPlace)
    (read : before.readText output.path = .ok text)
    (found : files.slot? output.path = some place)
    (other : files.nodeAt? place ≠ some .directory)
    (located : files.locate true path = .ok directory)
    (isDirectory : files.nodeAt? directory = some .directory) (content : ByteArray)
    (mark : Bool) :
    (files.put place { node := .file content, isReadOnly := mark }).locate true path =
      .ok directory := by
  have groundedNow : files.Grounded files.workingPlace :=
    evolved.includes.workingPlace ▸ evolved.grounded grounded
  have notEmpty := ne_empty_of_locate located
  rw [FileSystem.locate_eq_walk notEmpty] at located ⊢
  rcases FileSystem.way_of_directory located isDirectory with ⟨left, way⟩
  exact (way_put_output evolved grounded read found other way (grounded_origin groundedNow _)
    content mark).walk_eq

/-- An output that can be read is found under its name. -/
theorem slot_of_readText (grounded : files.Grounded files.workingPlace)
    (named : output.path.name? = some name) (read : files.readText output.path = .ok text) :
    ∃ place, files.slot? output.path = some place ∧ files.nodeAt? place ≠ some .directory := by
  rcases FileSystem.readContent_eq_ok_iff.1 (FileSystem.readText_eq_ok_iff.1 read) with
    ⟨source, located, file⟩
  rcases exists_of_locate_output named grounded located (by simp [file]) with
    ⟨-, directory, left, reached, isDirectory, last⟩
  refine ⟨_, FileSystem.slot?_eq_some_iff.2 ⟨name, directory, named, reached, isDirectory, rfl⟩, ?_⟩
  intro impossible
  rw [FileSystem.walk_directory (Path.segments_of_name named).1 impossible, FileSystem.walk_nil]
    at last
  cases last
  cases impossible.symm.trans file

/-- What an output that is no link stands for is what is read. -/
theorem node?_of_readText (grounded : files.Grounded files.workingPlace)
    (named : output.path.name? = some name) (read : files.readText output.path = .ok text)
    (unlinked : ∀ target, output.node? files ≠ some (.link target)) :
    output.node? files = some (.file text.toUTF8) := by
  rcases slot_of_readText grounded named read with ⟨place, slot, other⟩
  rcases FileSystem.readContent_eq_ok_iff.1 (FileSystem.readText_eq_ok_iff.1 read) with
    ⟨source, located, file⟩
  have notLink (target : Path) : files.nodeAt? place ≠ some (.link target) :=
    fun link => unlinked target (node?_eq_some_iff.2 ⟨place, slot, link⟩)
  cases FileSystem.eq_of_locate_of_slot slot other notLink located
  exact node?_eq_some_iff.2 ⟨place, slot, file⟩

/-- An output that could be read stands for what it is replaced by. -/
theorem node?_of_replace {after : FileSystem} {content : ByteArray}
    (evolved : Evolved before files) (grounded : before.Grounded before.workingPlace)
    (read : before.readText output.path = .ok text)
    (replaced : files.replace output.path content = .ok after) :
    output.node? after = some (.file content) := by
  rcases FileSystem.replace_eq_ok replaced with ⟨place, mark, found, other, rfl⟩
  rcases FileSystem.slot?_eq_some_iff.1 found with
    ⟨name, above, named, reached, isDirectory, rfl⟩
  refine node?_eq_some_iff.2 ⟨above ++ [name], ?_, FileSystem.nodeAt?_put_self (by simp)⟩
  refine FileSystem.slot?_eq_some_iff.2 ⟨name, above, named,
    locate_put_output evolved grounded read found other reached isDirectory content mark, ?_, rfl⟩
  rwa [FileSystem.nodeAt?_put_of_ne]
  intro impossible
  simp at impossible

/-- An output that could be read can be read once it is replaced. -/
theorem readContent_of_replace {after : FileSystem} {content : ByteArray}
    (evolved : Evolved before files) (grounded : before.Grounded before.workingPlace)
    (read : before.readText output.path = .ok text)
    (replaced : files.replace output.path content = .ok after) :
    after.readContent output.path = .ok content := by
  rcases FileSystem.readContent_eq_ok_iff.1 (FileSystem.readText_eq_ok_iff.1 read) with
    ⟨source, located, file⟩
  apply readContent_of_node? (getLast?_of_locate grounded located (by simp [file]))
  exact node?_of_replace evolved grounded read replaced

/-! ## The output as it was -/

/--
The output is what it was.  A link is followed: in its place there is then a file with the
content that it led to, and if it led nowhere, the path still leads nowhere.
-/
structure Recovered (output : Output) (before after : FileSystem) : Prop where
  /-- The name stands for what it stood for, if nothing stands behind it in the path. -/
  node : output.path.segments.getLast? = output.path.name? →
    (∀ target, output.node? before ≠ some (.link target)) →
      output.node? after = output.node? before
  content : ∀ content, before.readContent output.path = .ok content →
    output.node? after = some (.file content) ∧ after.readContent output.path = .ok content
  absent : before.isPresent output.path = false → after.isPresent output.path = false

/-- Where the path led nowhere and leads nowhere now, there is no output. -/
theorem Evolved.recovered (evolved : Evolved before files)
    (absent : before.isPresent output.path = false)
    (gone : files.isPresent output.path = false) : output.Recovered before files where
  node last unlinked := by
    rw [node?_eq_none last absent unlinked,
      node?_eq_none last gone (evolved.node?_ne_link unlinked)]
  content content read := by
    rw [FileSystem.isPresent_of_readContent read] at absent
    cases absent
  absent _ := gone

/-- An output that could be read is back once it is replaced by its own text. -/
theorem Evolved.recovered_of_replace {after : FileSystem} (evolved : Evolved before files)
    (grounded : before.Grounded before.workingPlace) (named : output.path.name? = some name)
    (read : before.readText output.path = .ok text)
    (replaced : files.replace output.path text.toUTF8 = .ok after) :
    output.Recovered before after := by
  have first := FileSystem.readText_eq_ok_iff.1 read
  have node := node?_of_replace evolved grounded read replaced
  constructor
  case node =>
    intro _ unlinked
    rw [node, node?_of_readText grounded named read unlinked]
  case content =>
    intro content again
    cases first.symm.trans again
    exact ⟨node, readContent_of_replace evolved grounded read replaced⟩
  case absent =>
    intro absent
    rw [FileSystem.isPresent_of_readContent first] at absent
    cases absent

end

end Output

namespace Transaction

open Output

variable {output : Output} {before begun files : FileSystem} {transaction : Transaction}
  {now : Timestamp}

/-! ## The rollback -/

/-- A transaction begins with a backup if there is something to back up. -/
theorem perform_start_eq_ok
    (started : perform (start output now) before = (.ok transaction, begun)) :
    before.isPresent output.path = false ∧ begun = before ∧
        transaction = { output, backup? := none, existed := false } ∨
      ∃ text name, output.path.name? = some name ∧ before.readText output.path = .ok text ∧
        before.write (output.backups.child (Backup.nameAt name now)) text.toUTF8 = .ok begun ∧
          transaction =
            { output, backup? := some (output.backups.child (Backup.nameAt name now)),
              existed := true } := by
  rw [start, perform_bind, perform_isPresent] at started
  cases present : before.isPresent output.path with
  | false =>
      simp only [present, Bool.false_eq_true, if_false, perform_pure, Prod.mk.injEq,
        Except.ok.injEq] at started
      exact Or.inl ⟨rfl, started.2.symm, started.1.symm⟩
  | true =>
      simp only [present, if_true] at started
      rcases perform_bind_eq_ok_iff.1 started with ⟨backup, copied, performed, finished⟩
      rcases perform_backUp performed with
        ⟨⟨error, impossible⟩, -⟩ | ⟨text, name, named, read, written, same⟩
      · cases impossible
      · cases same
        cases finished
        exact Or.inr ⟨text, name, named, read, written, rfl⟩

/-- What the beginning leaves where the output is a text and its backup can be written. -/
theorem perform_start_eq {directory : Place} {name text : String}
    (named : output.path.name? = some name) (read : files.readText output.path = .ok text)
    (located : files.locate true output.backups = .ok directory)
    (isDirectory : files.nodeAt? directory = some .directory)
    (free : ∀ entry, files.entryAt? (directory ++ [Backup.nameAt name now]) = some entry →
      ∃ old, entry = { node := .file old }) :
    perform (start output now) files =
      (.ok { output, backup? := some (output.backups.child (Backup.nameAt name now)),
             existed := true },
        files.put (directory ++ [Backup.nameAt name now]) { node := .file text.toUTF8 }) := by
  have present := FileSystem.isPresent_of_readContent (FileSystem.readText_eq_ok_iff.1 read)
  have written := write_backup_eq named located isDirectory free text.toUTF8
  simp only [start, perform_bind, perform_isPresent, present, if_true,
    perform_backUp_eq named read written, perform_pure]

/-- The rollback brings the output back or fails and leaves all files as they are. -/
def Restores (transaction : Transaction) (before files : FileSystem) : Prop :=
  (∃ after, perform transaction.rollback files = (.ok (), after) ∧
      transaction.output.Recovered before after ∧
      (transaction.output.path.segments.getLast? ≠ transaction.output.path.name? →
        after = files)) ∨
    ∃ error, perform transaction.rollback files = (.error error, files)

theorem restores_of_absent (evolved : Evolved before files)
    (grounded : before.Grounded before.workingPlace)
    (absent : before.isPresent output.path = false) (isCommitted : Bool) :
    Restores { output, backup? := none, existed := false, isCommitted } before files := by
  cases present : files.isPresent output.path with
  | false =>
      refine Or.inl ⟨files, ?_, evolved.recovered absent present, fun _ => rfl⟩
      simp only [rollback, Bool.false_eq_true, if_false, perform_bind, perform_isPresent,
        present, perform_pure]
  | true =>
      cases removed : files.remove output.path with
      | error fault =>
          refine Or.inr ⟨.files fault, ?_⟩
          simp only [rollback, Bool.false_eq_true, if_false, perform_bind, perform_isPresent,
            present, if_true, perform_change, removed]
      | ok after =>
          have groundedNow : files.Grounded files.workingPlace :=
            evolved.includes.workingPlace ▸ evolved.grounded grounded
          rcases FileSystem.remove_eq_ok removed with ⟨place, located, other, -, same⟩
          have later : Evolved before after := same ▸ evolved.erase other
          refine Or.inl ⟨after, ?_,
            later.recovered absent (isPresent_of_remove groundedNow removed), ?_⟩
          · simp only [rollback, Bool.false_eq_true, if_false, perform_bind, perform_isPresent,
              present, if_true, perform_change, removed]
          · intro beyond
            exact absurd (getLast?_of_locate groundedNow located other) beyond

/-- A backup that can be read is the one from the beginning. -/
theorem eq_of_readText_backup {directory : Place} {name text found : String}
    (grounded : before.Grounded before.workingPlace)
    (named : output.path.name? = some name)
    (located : before.locate true output.backups = .ok directory)
    (saved : Saved before (directory ++ [Backup.nameAt name now]) text files)
    (backup : files.readText (output.backups.child (Backup.nameAt name now)) = .ok found) :
    found = text := by
  have file := FileSystem.readText_eq_ok_iff.1 backup
  rcases FileSystem.readContent_eq_ok_iff.1 file with ⟨place, reached, content⟩
  rcases exists_of_locate_backup saved.evolved grounded (isName_nameAt named now) reached
    with ⟨again, left, relocated, -, last⟩
  rw [located] at relocated
  cases relocated
  rw [FileSystem.walk_last (isName_nameAt named now)] at last
  · cases last
    rcases saved.backup with none | there
    · rw [none] at content
      cases content
    · rw [there, Option.some.injEq, Node.file.injEq] at content
      have decoded := congrArg String.fromUTF8? content
      rw [FileSystem.fromUTF8?_toUTF8, FileSystem.fromUTF8?_toUTF8] at decoded
      cases decoded
      rfl
  · intro _ target link
    rcases saved.backup with none | there
    · rw [none] at link
      cases link
    · rw [there] at link
      cases link

theorem restores_of_saved {directory : Place} {name text : String}
    (grounded : before.Grounded before.workingPlace)
    (named : output.path.name? = some name) (read : before.readText output.path = .ok text)
    (located : before.locate true output.backups = .ok directory)
    (saved : Saved before (directory ++ [Backup.nameAt name now]) text files)
    (isCommitted : Bool) :
    Restores
      { output, backup? := some (output.backups.child (Backup.nameAt name now)),
        existed := true, isCommitted } before files := by
  cases backup : files.readText (output.backups.child (Backup.nameAt name now)) with
  | error fault =>
      refine Or.inr ⟨.files fault, ?_⟩
      simp only [rollback, perform_bind, perform_look, backup, Except.mapError]
  | ok found =>
      have same := eq_of_readText_backup grounded named located saved backup
      subst same
      cases replaced : files.replace output.path found.toUTF8 with
      | error fault =>
          refine Or.inr ⟨.writeFailed fault, ?_⟩
          simp only [rollback, perform_bind, perform_look, backup, Except.mapError,
            Output.replace, perform_change, replaced]
      | ok after =>
          rcases FileSystem.readContent_eq_ok_iff.1 (FileSystem.readText_eq_ok_iff.1 read) with
            ⟨source, first, file⟩
          have last := getLast?_of_locate grounded first (by simp [file])
          refine Or.inl ⟨after, ?_, saved.evolved.recovered_of_replace grounded named read replaced,
            fun beyond => absurd last beyond⟩
          simp only [rollback, perform_bind, perform_look, backup, Except.mapError,
            Output.replace, perform_change, replaced]

/--
After any steps on the same output, a rollback that succeeds has brought back
the output as it was at the beginning if its path ends in its name, and has
changed nothing if it does not; one that fails has changed no file.  A
transaction that began without a backup of an output that was there is never
rolled back.
-/
theorem rollback_restores_or_fails (output : Output) (before : FileSystem)
    (grounded : before.Grounded before.workingPlace) :
    (∀ now transaction begun steps isCommitted,
      perform (start output now) before = (.ok transaction, begun) →
      ((now :: steps.filterMap Step.moment?).map Timestamp.text).Nodup →
      (∀ moment ∈ now :: steps.filterMap Step.moment?, output.IsUnused before moment) →
        Restores { transaction with isCommitted } before (Step.runAll output steps begun)) ∧
    ∀ transaction begun isCommitted, before.isPresent output.path = true →
      perform (startWithoutBackup output) before = (.ok transaction, begun) →
        ∀ files, perform (rollback { transaction with isCommitted }) files =
          (.error (.backupFailed .notTaken), files) := by
  constructor
  · intro now transaction begun steps isCommitted started distinct unused
    rcases perform_start_eq_ok started with
      ⟨absent, rfl, rfl⟩ | ⟨text, name, named, read, written, rfl⟩
    · have evolved : Evolved begun (Step.runAll output steps begun) :=
        (keptBy_evolved output begun).runAll (by simp) (Evolved.refl begun)
      exact restores_of_absent evolved grounded absent isCommitted
    · have unusedNow := unused now List.mem_cons_self
      rcases FileSystem.write_eq_ok written with ⟨place, mark, reached, ends, -, rfl⟩
      rcases place_of_backup (Evolved.refl before) grounded named unusedNow.unlinked reached
        with ⟨directory, located, rfl⟩
      rw [List.map_cons, List.nodup_cons] at distinct
      apply restores_of_saved grounded named read located _ isCommitted
      apply (keptBy_saved grounded named).runAll
      · intro moment member
        refine ⟨unused moment (List.mem_cons_of_mem now member), ?_⟩
        intro same
        exact distinct.1 (same ▸ List.mem_map_of_mem member)
      · refine ⟨(Evolved.refl before).put ends.ne_directory _ mark, Or.inr ?_⟩
        exact FileSystem.nodeAt?_put_self (by simp)
  · intro transaction begun isCommitted present started files
    rw [startWithoutBackup, perform_bind, perform_isPresent, present] at started
    cases started
    rfl

end Transaction

/-! ## An output that is committed to and brought back -/

namespace Sample

def archive : FileSystem where
  entries :=
    [(["out.json"], { node := .file "old".toUTF8 }), (["backups"], { node := .directory })]

def archiveTime : Timestamp := ⟨2024, 2, 29, 12, 0, 0⟩

def backupName : String :=
  Backup.nameAt "out.json" archiveTime

/-- The files with the backup of the output. -/
def backedUp : FileSystem :=
  archive.put ["backups", backupName] { node := .file "old".toUTF8 }

/-- The transaction that takes the backup. -/
def begun : Transaction where
  output := archived
  backup? := some (archived.backups.child backupName)
  existed := true

theorem entryAt?_backup_archive : archive.entryAt? ["backups", backupName] = none := by
  simp [FileSystem.entryAt?, archive]

theorem start_archived :
    perform (Transaction.start archived archiveTime) archive = (.ok begun, backedUp) := by
  apply Transaction.perform_start_eq name_archived (readText_archived rfl rfl)
    (locate_backups rfl rfl) rfl
  intro entry found
  cases entryAt?_backup_archive.symm.trans found

theorem grounded_archive : archive.Grounded archive.workingPlace :=
  archive.grounded_root

theorem unused_archive (moment : Timestamp) : archived.IsUnused archive moment := by
  have listed : archive.names archived.backups = .ok [] :=
    names_backups rfl rfl
  intro name names _ found
  rw [listed] at found
  cases found
  simp

theorem node?_archive : archived.node? archive = some (.file "old".toUTF8) :=
  Output.node?_eq_some_iff.2 ⟨["out.json"], slot?_archived rfl, rfl⟩

/-- The files once the transaction has committed another text. -/
def committed : FileSystem :=
  backedUp.put ["out.json"] { node := .file "new".toUTF8 }

theorem runAll_commit_archived :
    Output.Step.runAll archived [.commit begun "new"] backedUp = committed := by
  have replaced : backedUp.replace archived.path "new".toUTF8 = .ok committed :=
    FileSystem.replace_of_file (slot?_archived rfl) rfl _
  simp only [Output.Step.runAll, List.foldl_cons, List.foldl_nil, Output.Step.run,
    Transaction.commit, begun, Output.replace, perform_bind, Bool.false_eq_true, if_false,
    perform_pure, perform_change, replaced]

/-- The output is restored or nothing is changed, and after a commit alone it is restored. -/
theorem begun_restores :
    archive.Grounded archive.workingPlace ∧
      perform (Transaction.start archived archiveTime) archive = (.ok begun, backedUp) ∧
      begun.Restores archive
        (Output.Step.runAll archived [.commit begun "new", .prune 0] backedUp) ∧
      ∃ after, perform begun.rollback committed = (.ok (), after) ∧
        archived.node? after = some (.file "old".toUTF8) := by
  have restores (steps : List Output.Step)
      (still : steps.filterMap Output.Step.moment? = []) :
      begun.Restores archive (Output.Step.runAll archived steps backedUp) := by
    apply (Transaction.rollback_restores_or_fails archived archive grounded_archive).1 archiveTime
      begun _ _ false start_archived
    · simp [still]
    · exact fun moment _ => unused_archive moment
  refine ⟨grounded_archive, start_archived, restores _ rfl, ?_⟩
  have backup : committed.readText (archived.backups.child backupName) = .ok "old" :=
    Output.readText_backup name_archived (locate_backups rfl rfl) rfl rfl
  have succeeds : (perform begun.rollback committed).1 = .ok () := by
    have replaced : committed.replace archived.path "old".toUTF8 =
        .ok (committed.put ["out.json"] { node := .file "old".toUTF8 }) :=
      FileSystem.replace_of_file (slot?_archived rfl) rfl _
    simp only [Transaction.rollback, begun, perform_bind, perform_look, backup, Except.mapError,
      Output.replace, perform_change, replaced]
  rcases runAll_commit_archived ▸ restores [.commit begun "new"] rfl with
    ⟨after, ended, recovered, -⟩ | ⟨error, failed⟩
  · refine ⟨after, ended, ?_⟩
    rw [← node?_archive]
    refine recovered.node (by decide) fun target link => ?_
    cases node?_archive.symm.trans link
  · rw [failed] at succeeds
    cases succeeds

/-! ## A path that goes on after the name -/

/-- The output of `archived`, named by a path with a slash behind the name. -/
def slashed : Output :=
  ⟨⟨["out.json", ""]⟩⟩

theorem name_slashed : slashed.path.name? = some "out.json" := by decide

section

variable {files : FileSystem}

theorem slot?_slashed (home : files.workingPlace = []) :
    files.slot? slashed.path = some ["out.json"] :=
  slot?_alone name_slashed (by decide) home

theorem node?_slashed (home : files.workingPlace = []) {content : ByteArray}
    (file : files.nodeAt? ["out.json"] = some (.file content)) :
    slashed.node? files = some (.file content) :=
  Output.node?_eq_some_iff.2 ⟨["out.json"], slot?_slashed home, file⟩

theorem isPresent_slashed (home : files.workingPlace = []) {content : ByteArray}
    (file : files.nodeAt? ["out.json"] = some (.file content)) :
    files.isPresent slashed.path = false :=
  Output.isPresent_of_beyond (home ▸ files.grounded_root) (by decide) (node?_slashed home file)

end

/-- The transaction that takes no backup, as the path leads nowhere. -/
def slashedBegun : Transaction where
  output := slashed
  backup? := none
  existed := false

/-- The commit has replaced the output, and the rollback succeeds without bringing it back. -/
theorem slashed_rollback_loses_output :
    archive.Grounded archive.workingPlace ∧
      perform (Transaction.start slashed archiveTime) archive = (.ok slashedBegun, archive) ∧
      ∃ files, Output.Step.runAll slashed [.commit slashedBegun "new"] archive = files ∧
        perform { slashedBegun with isCommitted := true }.rollback files = (.ok (), files) ∧
        slashed.node? archive = some (.file "old".toUTF8) ∧
        slashed.node? files = some (.file "new".toUTF8) ∧ ¬ slashed.Untouched archive files := by
  have replaced : archive.replace slashed.path "new".toUTF8 =
      .ok (archive.put ["out.json"] { node := .file "new".toUTF8 }) :=
    FileSystem.replace_of_file (slot?_slashed rfl) rfl _
  have before : slashed.node? archive = some (.file "old".toUTF8) := node?_slashed rfl rfl
  have file : (archive.put ["out.json"] { node := .file "new".toUTF8 }).nodeAt? ["out.json"] =
      some (.file "new".toUTF8) := FileSystem.nodeAt?_put_self (by simp)
  have after : slashed.node? (archive.put ["out.json"] { node := .file "new".toUTF8 }) =
      some (.file "new".toUTF8) := node?_slashed rfl file
  refine ⟨grounded_archive, ?_, _, ?_, ?_, before, after, ?_⟩
  · have absent : archive.isPresent slashed.path = false := isPresent_slashed rfl rfl
    simp only [Transaction.start, perform_bind, Output.perform_isPresent, absent,
      Bool.false_eq_true, if_false, perform_pure, slashedBegun]
  · simp only [Output.Step.runAll, List.foldl_cons, List.foldl_nil, Output.Step.run,
      Transaction.commit, slashedBegun, Output.replace, perform_bind, Bool.false_eq_true,
      if_false, perform_pure, perform_change, replaced]
  · have gone := isPresent_slashed rfl file
    simp only [Transaction.rollback, slashedBegun, perform_bind, Output.perform_isPresent, gone,
      Bool.false_eq_true, if_false, perform_pure]
  · intro untouched
    have same := untouched.node?_eq (by simp [slot?_slashed (rfl : archive.workingPlace = [])])
    rw [before, after, Option.some.injEq, Node.file.injEq] at same
    exact absurd same (by decide)

end Sample

end KeyLayers
