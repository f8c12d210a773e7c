import KeyLayers.Proofs.Json.Record
import KeyLayers.Toml.Text

/-!
# Names in a document are distinct

No statement of a document defines a name twice in one table, so every table of
a document that has been read has distinct names, and so have the tables inside
its values.
-/

namespace KeyLayers

/-- Whether the names in every table of a value are distinct. -/
inductive Toml.Distinct : Toml → Prop where
  | str (text : String) : Distinct (.str text)
  | int (value : Int) : Distinct (.int value)
  | float (value : Binary64) : Distinct (.float value)
  | bool (value : Bool) : Distinct (.bool value)
  | datetime (text : String) : Distinct (.datetime text)
  | array {items : List Toml} (each : ∀ item ∈ items, Distinct item) : Distinct (.array items)
  | table {members : List (String × Toml)} (distinct : (Members.names members).Nodup)
      (each : ∀ member ∈ members, Distinct member.2) : Distinct (.table members)

namespace Toml

/-! ## Building -/

/-- Whether the names in every table of a draft are distinct. -/
inductive Draft.Distinct : Draft → Prop where
  | whole {content : Toml} (distinct : content.Distinct) : Distinct (.whole content)
  | table {origin : Origin} {members : List (String × Draft)}
      (distinct : (Members.names members).Nodup)
      (each : ∀ member ∈ members, Distinct member.2) : Distinct (.table origin members)
  | tables {items : List (List (String × Draft))}
      (distinct : ∀ item ∈ items, (Members.names item).Nodup)
      (each : ∀ item ∈ items, ∀ member ∈ item, Distinct member.2) : Distinct (.tables items)

namespace Draft

abbrev Sound (members : Members Draft) : Prop :=
  Members.Each Distinct members

theorem distinct_table_iff {origin : Origin} {members : Members Draft} :
    Distinct (.table origin members) ↔ Sound members := by
  constructor
  · rintro (_ | ⟨distinct, each⟩)
    exact ⟨distinct, each⟩
  · intro ⟨distinct, each⟩
    exact .table distinct each

theorem distinct_tables_iff {items : List (Members Draft)} :
    Distinct (.tables items) ↔ ∀ item ∈ items, Sound item := by
  constructor
  · rintro (_ | _ | ⟨distinct, each⟩) item member
    exact ⟨distinct item member, each item member⟩
  · intro sound
    exact .tables (fun item member => (sound item member).distinct)
      (fun item member => (sound item member).each)

/-- Putting back a table that has been changed inside. -/
theorem Sound.replaceTable {members inner : Members Draft} {name : String} {origin : Origin}
    (sound : Sound members) (changed : Sound inner) :
    Sound (replace members name (.table origin inner)) :=
  sound.put name (distinct_table_iff.2 changed)

/-- Putting back a list of tables of which the last one has been changed. -/
theorem Sound.replaceLast {members last changed : Members Draft} {before : List (Members Draft)}
    {name : String} (sound : Sound members)
    (here : members.get? name = some (.tables (last :: before))) (inside : Sound changed) :
    Sound (replace members name (.tables (changed :: before))) := by
  have items := distinct_tables_iff.1 (sound.get? here)
  apply sound.put name
  apply distinct_tables_iff.2
  intro item member
  rcases List.mem_cons.1 member with rfl | old
  · exact inside
  · exact items item (List.mem_cons_of_mem _ old)

theorem Sound.inner {members inner : Members Draft} {name : String} {origin : Origin}
    (sound : Sound members) (here : members.get? name = some (.table origin inner)) :
    Sound inner :=
  distinct_table_iff.1 (sound.get? here)

theorem Sound.last {members last : Members Draft} {before : List (Members Draft)} {name : String}
    (sound : Sound members) (here : members.get? name = some (.tables (last :: before))) :
    Sound last :=
  distinct_tables_iff.1 (sound.get? here) last List.mem_cons_self

theorem sound_assign? {value : Toml} (distinct : value.Distinct) {path : List String}
    {members changed : Members Draft} (sound : Sound members)
    (found : assign? value path members = some changed) : Sound changed := by
  fun_induction assign? value path members generalizing changed with
  | case1 => cases found
  | case2 members name taken => cases found
  | case3 members name free =>
      cases found
      exact sound.append (by simpa using free) (.whole distinct)
  | case4 members name path long free ih =>
      obtain ⟨inner, made, rfl⟩ := Option.map_eq_some_iff.1 found
      exact sound.append free (distinct_table_iff.2 (ih Members.each_nil made))
  | case5 => cases found
  | case6 members name path long origin inner here _ ih =>
      obtain ⟨inner', made, rfl⟩ := Option.map_eq_some_iff.1 found
      exact sound.replaceTable (ih (sound.inner here) made)
  | case7 => cases found

/-- Whether a change of the members of one table keeps their names distinct. -/
def Keeps (change : String → Members Draft → Option (Members Draft)) : Prop :=
  ∀ name members changed, Sound members → change name members = some changed → Sound changed

theorem sound_change? {change : String → Members Draft → Option (Members Draft)}
    (keeps : Keeps change) {path : List String} {members changed : Members Draft}
    (sound : Sound members) (found : change? change path members = some changed) :
    Sound changed := by
  fun_induction change? change path members generalizing changed with
  | case1 => cases found
  | case2 name members => exact keeps name members changed sound found
  | case3 members name path long free ih =>
      obtain ⟨inner, made, rfl⟩ := Option.map_eq_some_iff.1 found
      exact sound.append free (distinct_table_iff.2 (ih Members.each_nil made))
  | case4 members name path long origin inner here ih =>
      obtain ⟨inner', made, rfl⟩ := Option.map_eq_some_iff.1 found
      exact sound.replaceTable (ih (sound.inner here) made)
  | case5 members name path long last before here ih =>
      obtain ⟨last', made, rfl⟩ := Option.map_eq_some_iff.1 found
      exact sound.replaceLast here (ih (sound.last here) made)
  | case6 => cases found

theorem keeps_openTable? : Keeps openTable? := by
  intro name members changed sound found
  unfold openTable? at found
  split at found
  next free =>
    cases found
    exact sound.append free (distinct_table_iff.2 Members.each_nil)
  next inner here =>
    cases found
    have rest : Sound (members.remove name) := sound.sublist List.filter_sublist
    have free : (members.remove name).get? name = none := by
      simp [Members.get?, Members.remove]
    exact rest.append free (distinct_table_iff.2 (sound.inner here))
  next => cases found

theorem keeps_openItem? : Keeps openItem? := by
  intro name members changed sound found
  unfold openItem? at found
  split at found
  next free =>
    cases found
    apply sound.append free
    apply distinct_tables_iff.2
    intro item member
    cases List.mem_singleton.1 member
    exact Members.each_nil
  next items here =>
    cases found
    apply sound.put name
    apply distinct_tables_iff.2
    intro item member
    rcases List.mem_cons.1 member with rfl | old
    · exact Members.each_nil
    · exact distinct_tables_iff.1 (sound.get? here) item old
  next => cases found

theorem keeps_assignIn? {value : Toml} (distinct : value.Distinct) (path : List String) :
    Keeps (assignIn? path value) := by
  intro name members changed sound found
  unfold assignIn? at found
  split at found
  next origin inner here =>
    obtain ⟨inner', made, rfl⟩ := Option.map_eq_some_iff.1 found
    exact sound.replaceTable (sound_assign? distinct (sound.inner here) made)
  next last before here =>
    obtain ⟨last', made, rfl⟩ := Option.map_eq_some_iff.1 found
    exact sound.replaceLast here (sound_assign? distinct (sound.last here) made)
  next => cases found

end Draft

/-- Whether the names in the value of a statement, if there is one, are distinct. -/
def Statement.Distinct : Statement → Prop
  | .assign _ value => value.Distinct
  | .header _ | .itemHeader _ => True

namespace Draft

theorem sound_step? {document changed : Members Draft} {header header' : List String}
    {statement : Statement} (sound : Sound document) (distinct : statement.Distinct)
    (found : step? document header statement = some (changed, header')) : Sound changed := by
  cases statement with
  | header path =>
      simp only [step?, Option.map_eq_some_iff, Prod.mk.injEq] at found
      obtain ⟨_, made, rfl, -⟩ := found
      exact sound_change? keeps_openTable? sound made
  | itemHeader path =>
      simp only [step?, Option.map_eq_some_iff, Prod.mk.injEq] at found
      obtain ⟨_, made, rfl, -⟩ := found
      exact sound_change? keeps_openItem? sound made
  | assign path value =>
      simp only [step?, Option.map_eq_some_iff, Prod.mk.injEq] at found
      obtain ⟨_, made, rfl, -⟩ := found
      split at made
      next => exact sound_assign? distinct sound made
      next => exact sound_change? (keeps_assignIn? distinct path) sound made

theorem sound_build? {statements : List Statement} {document changed : Members Draft}
    {header : List String} (sound : Sound document)
    (distinct : ∀ statement ∈ statements, statement.Distinct)
    (found : build? document header statements = some changed) : Sound changed := by
  induction statements generalizing document header with
  | nil =>
      cases found
      exact sound
  | cons statement rest ih =>
      rw [build?] at found
      split at found
      next document' header' step =>
        exact ih (sound_step? sound (distinct statement List.mem_cons_self) step)
          (fun other member => distinct other (List.mem_cons_of_mem _ member)) found
      next => cases found

theorem names_finishMembers (members : Members Draft) :
    Members.names (finishMembers members) = members.names := by
  induction members with
  | nil => rfl
  | cons entry rest ih =>
      obtain ⟨name, draft⟩ := entry
      simpa [finishMembers, Members.names] using ih

theorem exists_of_mem_finishMembers {members : Members Draft} {member : String × Toml}
    (among : member ∈ finishMembers members) :
    ∃ entry ∈ members, member.2 = entry.2.finish := by
  induction members with
  | nil => cases among
  | cons entry rest ih =>
      rw [finishMembers] at among
      rcases List.mem_cons.1 among with rfl | later
      · exact ⟨entry, List.mem_cons_self, rfl⟩
      · obtain ⟨other, member, same⟩ := ih later
        exact ⟨other, List.mem_cons_of_mem _ member, same⟩

theorem exists_of_mem_finishItems {items : List (Members Draft)} {item : Toml}
    (among : item ∈ finishItems items) :
    ∃ members ∈ items, item = .table (finishMembers members) := by
  induction items with
  | nil => cases among
  | cons members rest ih =>
      rw [finishItems] at among
      rcases List.mem_cons.1 among with rfl | later
      · exact ⟨members, List.mem_cons_self, rfl⟩
      · obtain ⟨other, member, same⟩ := ih later
        exact ⟨other, List.mem_cons_of_mem _ member, same⟩

theorem distinct_finishMembers {members : Members Draft} (distinct : members.names.Nodup)
    (each : ∀ member ∈ members, member.2.finish.Distinct) :
    (Toml.table (finishMembers members)).Distinct := by
  apply Toml.Distinct.table
  · rwa [names_finishMembers]
  · intro member among
    obtain ⟨entry, known, same⟩ := exists_of_mem_finishMembers among
    rw [same]
    exact each entry known

theorem distinct_finish {draft : Draft} (distinct : draft.Distinct) : draft.finish.Distinct := by
  induction distinct with
  | whole distinct => exact distinct
  | table distinct each ih => exact distinct_finishMembers distinct ih
  | @tables items distinct each ih =>
      apply Toml.Distinct.array
      intro item member
      obtain ⟨members, known, rfl⟩ := exists_of_mem_finishItems (List.mem_reverse.1 member)
      exact distinct_finishMembers (distinct members known) (ih members known)

end Draft

/-- Statements with distinct names in their values make up a table with distinct names. -/
theorem distinct_of_ofStatements? {statements : List Statement} {members : Members Toml}
    (distinct : ∀ statement ∈ statements, statement.Distinct)
    (found : ofStatements? statements = some members) : (Toml.table members).Distinct := by
  obtain ⟨draft, built, rfl⟩ := Option.map_eq_some_iff.1 found
  have sound := Draft.sound_build? Members.each_nil distinct built
  exact Draft.distinct_finishMembers sound.distinct fun member among =>
    Draft.distinct_finish (sound.each member among)

/-! ## Reading -/

theorem distinct_of_int? {text : List Char} {value : Toml} (found : int? text = some value) :
    value.Distinct := by
  unfold int? at found
  split at found
  all_goals
    obtain ⟨number, -, rfl⟩ := Option.map_eq_some_iff.1 found
    exact .int _

theorem distinct_of_float? {text : List Char} {value : Toml} (found : float? text = some value) :
    value.Distinct := by
  unfold float? at found
  simp only at found
  split at found
  next =>
    cases found
    exact .float _
  next =>
    cases found
    exact .float _
  next =>
    simp only [Option.bind_eq_bind, Option.bind_eq_some_iff, Option.ite_none_left_eq_some,
      Option.ite_none_right_eq_some, Option.pure_def, Option.some.injEq] at found
    obtain ⟨-, whole, -, fraction, -, exponent, -, -, rfl⟩ := found
    exact .float _

theorem distinct_of_ofBare? {text : List Char} {value : Toml} (found : ofBare? text = some value) :
    value.Distinct := by
  unfold ofBare? at found
  split at found
  next =>
    cases found
    exact .bool true
  next =>
    cases found
    exact .bool false
  next =>
    simp only [Option.orElse_eq_orElse, Option.orElse_eq_or, Option.or_eq_some_iff] at found
    rcases found with int | ⟨-, float | ⟨-, date⟩⟩
    · exact distinct_of_int? int
    · exact distinct_of_float? float
    · obtain ⟨text, -, rfl⟩ := Option.map_eq_some_iff.1 date
      exact .datetime _

theorem distinct_of_scalar? {text left : List Char} {value : Toml}
    (found : scalar? text = some (value, left)) : value.Distinct := by
  unfold scalar? at found
  split at found
  case h_3 =>
    unfold bare? at found
    simp only at found
    split at found
    all_goals
      obtain ⟨bare, read, same⟩ := Option.map_eq_some_iff.1 found
      cases same
      exact distinct_of_ofBare? read
  all_goals
    obtain ⟨⟨string, left⟩, -, same⟩ := Option.map_eq_some_iff.1 found
    cases same
    exact .str _

/-- Whether the names in everything that an open array or table holds are distinct. -/
def Frame.Distinct : Frame → Prop
  | .items before => ∀ item ∈ before, item.Distinct
  | .members before _ => ∀ statement ∈ before, statement.Distinct

/-- Whether the names in a value that has been read are distinct. -/
def Progress.Distinct : Progress → Prop
  | .after content => content.Distinct
  | .value | .item => True

/-- Whether the names in all that has been read of a value are distinct. -/
def Stage.Distinct (stage : Stage) : Prop :=
  (∀ frame ∈ stage.1, frame.Distinct) ∧ stage.2.1.Distinct

section

variable {stack : List Frame} (opened : ∀ frame ∈ stack, frame.Distinct)

include opened

theorem distinct_of_beginValue? {text : List Char} {stage : Stage}
    (found : beginValue? stack text = some stage) : stage.Distinct := by
  unfold beginValue? at found
  split at found
  next rest =>
    cases found
    refine ⟨?_, trivial⟩
    simpa [Frame.Distinct] using opened
  next rest =>
    split at found
    next left =>
      cases found
      exact ⟨opened, .table List.nodup_nil (by simp)⟩
    next start =>
      obtain ⟨⟨path, left⟩, -, rfl⟩ := Option.map_eq_some_iff.1 found
      refine ⟨?_, trivial⟩
      simpa [Frame.Distinct] using opened
  next =>
    obtain ⟨⟨value, left⟩, read, rfl⟩ := Option.map_eq_some_iff.1 found
    exact ⟨opened, distinct_of_scalar? read⟩

theorem distinct_of_continueValue? {frame : Frame} {value : Toml} {text : List Char}
    {stage : Stage} (inner : frame.Distinct) (distinct : value.Distinct)
    (found : continueValue? frame stack value text = some stage) : stage.Distinct := by
  unfold continueValue? at found
  split at found
  next before =>
    have items : ∀ item ∈ value :: before, item.Distinct := by
      simpa using ⟨distinct, inner⟩
    obtain ⟨gap, -, next⟩ := Option.bind_eq_some_iff.1 found
    split at next
    next =>
      cases next
      exact ⟨List.forall_mem_cons.2 ⟨items, opened⟩, trivial⟩
    next =>
      cases next
      refine ⟨opened, .array ?_⟩
      intro item member
      exact items item (List.mem_reverse.1 member)
    next => cases next
  next before path =>
    have statements : ∀ statement ∈ Statement.assign path value :: before,
        statement.Distinct := by
      simpa using ⟨distinct, inner⟩
    simp only at found
    split at found
    next =>
      obtain ⟨⟨path, left⟩, -, rfl⟩ := Option.map_eq_some_iff.1 found
      exact ⟨List.forall_mem_cons.2 ⟨statements, opened⟩, trivial⟩
    next =>
      obtain ⟨members, built, rfl⟩ := Option.map_eq_some_iff.1 found
      refine ⟨opened, distinct_of_ofStatements? ?_ built⟩
      intro statement member
      exact statements statement (List.mem_reverse.1 member)
    next => cases found

theorem distinct_of_stage? {progress : Progress} {text : List Char} {stage : Stage}
    (read : progress.Distinct) (found : stage? stack progress text = some stage) :
    stage.Distinct := by
  unfold stage? at found
  split at found
  next => exact distinct_of_beginValue? opened found
  next before outer =>
    obtain ⟨gap, -, next⟩ := Option.bind_eq_some_iff.1 found
    split at next
    next =>
      cases next
      refine ⟨fun frame member => opened frame (List.mem_cons_of_mem _ member), .array ?_⟩
      intro item member
      exact opened _ List.mem_cons_self item (List.mem_reverse.1 member)
    next => exact distinct_of_beginValue? opened next
  next value frame outer =>
    exact distinct_of_continueValue?
      (fun frame member => opened frame (List.mem_cons_of_mem _ member))
      (opened frame List.mem_cons_self) read found
  next => cases found

end

theorem distinct_of_readValue? {stack : List Frame} {progress : Progress} {text left : List Char}
    {value : Toml} (opened : ∀ frame ∈ stack, frame.Distinct) (read : progress.Distinct)
    (found : readValue? stack progress text = some (value, left)) : value.Distinct := by
  fun_induction readValue? stack progress text with
  | case1 text value' =>
      cases found
      exact read
  | case2 stack progress text _ ih =>
      obtain ⟨⟨stack', progress', rest⟩, staged, next⟩ := Option.bind_eq_some_iff.1 found
      simp only [Option.ite_none_right_eq_some] at next
      have sound := distinct_of_stage? opened read staged
      exact ih stack' progress' rest next.1 sound.1 sound.2 next.2

theorem distinct_of_statement? {text left : List Char} {statement : Statement}
    (found : statement? text = some (statement, left)) : statement.Distinct := by
  unfold statement? at found
  simp only [Option.bind_eq_bind, Option.pure_def] at found
  split at found
  case h_1 | h_2 =>
    obtain ⟨⟨path, left⟩, -, closed⟩ := Option.bind_eq_some_iff.1 found
    simp only at closed
    split at closed
    · cases closed
      trivial
    · cases closed
  case h_3 =>
    obtain ⟨⟨path, left⟩, -, rest⟩ := Option.bind_eq_some_iff.1 found
    obtain ⟨⟨value, left⟩, read, same⟩ := Option.bind_eq_some_iff.1 rest
    cases same
    apply distinct_of_readValue? _ _ read
    · simp
    · trivial

theorem distinct_of_statements? {text : List Char} {statements : List Statement}
    (found : statements? text = some statements) :
    ∀ statement ∈ statements, statement.Distinct := by
  fun_induction statements? text generalizing statements with
  | case1 text ih =>
      obtain ⟨start, -, next⟩ := Option.bind_eq_some_iff.1 found
      split at next
      next =>
        cases next
        simp
      next =>
        simp only [Option.bind_eq_bind, Option.bind_eq_some_iff, Option.ite_none_right_eq_some,
          Option.pure_def, Option.some.injEq] at next
        obtain ⟨⟨statement, left⟩, read, left', -, shorter, rest, later, rfl⟩ := next
        exact List.forall_mem_cons.2 ⟨distinct_of_statement? read, ih _ shorter later⟩

/-- The names in every table of a document that has been read are distinct. -/
theorem distinct_of_ofText? {text : String} {members : Members Toml}
    (found : ofText? text = some members) : (Toml.table members).Distinct := by
  obtain ⟨statements, read, built⟩ := Option.bind_eq_some_iff.1 found
  exact distinct_of_ofStatements? (distinct_of_statements? read) built

end Toml

end KeyLayers
