import KeyLayers.Proofs.Json.Scan

/-!
# Reading what has been written
-/

namespace KeyLayers

namespace Json

/-! ## Steps -/

section

variable {stack : List Frame} {before : List Source} {members : List (Option String × Source)}
  {source : Source} {text left rest : List Char}

theorem run_congr (expect : Expect) (same : skipSpaces text = skipSpaces rest) :
    run stack expect text = run stack expect rest := by
  rw [run.eq_def, run.eq_def stack expect rest]
  dsimp only
  generalize skipSpaces text = shown at same ⊢
  generalize skipSpaces rest = shown at same ⊢
  subst same
  rfl

theorem skipSpaces_of_not {c : Char} {rest : List Char} (solid : isSpace c = false) :
    skipSpaces (c :: rest) = c :: rest := by
  simp [skipSpaces, solid]

theorem run_value_array :
    run stack .value ('[' :: rest) = run (.items [] :: stack) .itemOrEnd rest := by
  rw [run.eq_def]
  rfl

theorem run_value_object :
    run stack .value ('\x7b' :: rest) = run stack .nameOrEnd rest := by
  rw [run.eq_def]
  rfl

theorem run_itemOrEnd_end :
    run (.items [] :: stack) .itemOrEnd (']' :: rest) = run stack (.after (.array [])) rest := by
  rw [run.eq_def]
  rfl

theorem run_nameOrEnd_end :
    run stack .nameOrEnd ('\x7d' :: rest) = run stack (.after (.object [])) rest := by
  rw [run.eq_def]
  rfl

theorem run_after_item :
    run (.items before :: stack) (.after source) (',' :: rest) =
      run (.items (source :: before) :: stack) .value rest := by
  rw [run.eq_def]
  rfl

theorem run_after_items :
    run (.items before :: stack) (.after source) (']' :: rest) =
      run stack (.after (.array (source :: before).reverse)) rest := by
  rw [run.eq_def]
  rfl

theorem run_after_member {name : Option String} :
    run (.members members name :: stack) (.after source) (',' :: rest) =
      run stack (.name ((name, source) :: members)) rest := by
  rw [run.eq_def]
  rfl

theorem run_after_members {name : Option String} :
    run (.members members name :: stack) (.after source) ('\x7d' :: rest) =
      run stack (.after (.object ((name, source) :: members).reverse)) rest := by
  rw [run.eq_def]
  rfl

theorem run_colon {name : Option String} :
    run stack (.colon members name) (':' :: rest) =
      run (.members members name :: stack) .value rest := by
  rw [run.eq_def]
  rfl

theorem run_end : run [] (.after source) [] = some source := by
  rw [run.eq_def]
  rfl

theorem run_name {units : List Nat} (found : scanString text = some (units, left)) :
    run stack (.name members) ('"' :: text) = run stack (.colon members (textOf units)) left := by
  rw [run.eq_def]
  split
  next empty =>
    rw [skipSpaces_of_not rfl] at empty
    cases empty
  next c rest next =>
    rw [skipSpaces_of_not rfl] at next
    cases next
    simp only [if_true]
    split
    next units' left' found' =>
      cases found.symm.trans found'
      rfl
    next missing => cases found.symm.trans missing

theorem run_nameOrEnd {units : List Nat} (found : scanString text = some (units, left)) :
    run stack .nameOrEnd ('"' :: text) = run stack (.colon [] (textOf units)) left := by
  rw [run.eq_def]
  split
  next empty =>
    rw [skipSpaces_of_not rfl] at empty
    cases empty
  next c rest next =>
    rw [skipSpaces_of_not rfl] at next
    cases next
    simp only [if_true, if_neg (by decide : '"' ≠ '\x7d')]
    split
    next units' left' found' =>
      cases found.symm.trans found'
      rfl
    next missing => cases found.symm.trans missing

/-- No scalar begins like a space, an array or an object, or like the end of one. -/
theorem scanScalar_first {c : Char} (found : scanScalar (c :: text) = some (source, left)) :
    isSpace c = false ∧ c ≠ '[' ∧ c ≠ '\x7b' ∧ c ≠ ']' := by
  unfold scanScalar at found
  split at found
  case h_6 text _ _ _ _ _ =>
    simp only [Option.map_eq_some_iff] at found
    obtain ⟨⟨numeral, left⟩, scanned, -⟩ := found
    obtain ⟨d, rest, same, digit⟩ := digit_of_scanNumeral scanned
    cases same
    have other : ∀ sign : Char, sign.isDigit = false → c ≠ sign := fun _ => ne_of_isDigit digit
    refine ⟨?_, other _ rfl, other _ rfl, other _ rfl⟩
    simp [isSpace, other ' ' rfl, other '\n' rfl, other '\r' rfl, other '\t' rfl]
  all_goals
    injection ‹c :: text = _› with first
    subst first
    exact ⟨rfl, by decide, by decide, by decide⟩

theorem run_value {c : Char} (solid : isSpace c = false) (array : c ≠ '[')
    (object : c ≠ '\x7b') :
    run stack .value (c :: text) =
      (scanScalar (c :: text)).bind fun (source, left) => run stack (.after source) left := by
  rw [run.eq_def]
  split
  next empty => simp [skipSpaces_of_not solid] at empty
  next d rest next =>
    rw [skipSpaces_of_not solid] at next
    cases next
    simp only [if_neg array, if_neg object]
    split
    next source left found => rw [found, Option.bind_some]
    next missing => rw [missing, Option.bind_none]

theorem run_value_scalar (found : scanScalar text = some (source, left)) :
    run stack .value text = run stack (.after source) left := by
  cases text with
  | nil => simp [scanScalar, scanNumeral, takeDigits] at found
  | cons c text =>
      obtain ⟨solid, array, object, -⟩ := scanScalar_first found
      rw [run_value solid array object, found, Option.bind_some]

theorem run_itemOrEnd {c : Char} (solid : isSpace c = false) (other : c ≠ ']') :
    run stack .itemOrEnd (c :: rest) = run stack .value (c :: rest) := by
  rw [run.eq_def, run.eq_def stack .value]
  split
  next empty => simp [skipSpaces_of_not solid] at empty
  next d rest next =>
    rw [skipSpaces_of_not solid] at next
    cases next
    simp only [if_neg other]

end

/-! ## Values -/

mutual

/-- The structure of the text that is written for a value. -/
def source : Json → Source
  | .arr items => .array (sourceItems items)
  | .obj members => .object (sourceMembers members)
  | scalar => ((scanScalar (writeScalar scalar)).map Prod.fst).getD .null

def sourceItems : List Json → List Source
  | [] => []
  | item :: rest => source item :: sourceItems rest

def sourceMembers : List (String × Json) → List (Option String × Source)
  | [] => []
  | (name, value) :: rest => (some name, source value) :: sourceMembers rest

end

mutual

/-- How deeply the arrays and objects of a value are nested. -/
def depth : Json → Nat
  | .arr items => depthOfItems items + 1
  | .obj members => depthOfMembers members + 1
  | _ => 0

def depthOfItems : List Json → Nat
  | [] => 0
  | item :: rest => max (depth item) (depthOfItems rest)

def depthOfMembers : List (String × Json) → Nat
  | [] => 0
  | (_, value) :: rest => max (depth value) (depthOfMembers rest)

end

end Json

/-- Whether a number is what its own text is read as. -/
def Binary64.ReadsBack (number : Binary64) : Prop :=
  Json.ofText? (String.ofList (Json.writeFloat number)) = some (.float number)

namespace Json

/--
A value that its text tells apart from all others: every number in it can be
read back, and no object has two members of one name.
-/
inductive Printable : Json → Prop where
  | null : Printable .null
  | bool (value : Bool) : Printable (.bool value)
  | int {value : Int} (fits : (Word.isSigned value || Word.isUnsigned value) = true) :
      Printable (.int value)
  | float {value : Binary64} (reads : value.ReadsBack) : Printable (.float value)
  | str (text : String) : Printable (.str text)
  | arr {items : List Json} (printable : ∀ item ∈ items, Printable item) :
      Printable (.arr items)
  | obj {members : List (String × Json)} (distinct : (Members.names members).Nodup)
      (printable : ∀ member ∈ members, Printable member.2) : Printable (.obj members)

theorem first_write (layout : Decimal.Layout) (decimal : Decimal) :
    ∃ c rest, layout.write decimal = c :: rest ∧ c.isDigit = true := by
  obtain ⟨c, digits, form, digit⟩ :=
    digit_of_scanNumeral (scanNumeral_toDigits false decimal.digits)
  simp only [Decimal.Layout.write, form]
  split
  · unfold Decimal.positional
    split
    · exact ⟨'0', _, rfl, rfl⟩
    · exact ⟨c, _, rfl, digit⟩
  · exact ⟨c, _, rfl, digit⟩

theorem first_writeFloat (negative : Bool) (mantissa : Nat) (exponent : Int) :
    ∃ c rest, writeFloat (.finite negative mantissa exponent) = c :: rest ∧
      (c = '-' ∨ c.isDigit = true) := by
  simp only [writeFloat, Decimal.Layout.writeFinite]
  split
  · cases negative with
    | true => exact ⟨'-', _, rfl, .inl rfl⟩
    | false => exact ⟨'0', _, rfl, .inr rfl⟩
  · cases negative with
    | true => exact ⟨'-', _, rfl, .inl rfl⟩
    | false =>
        obtain ⟨c, rest, form, digit⟩ :=
          first_write numberLayout (Decimal.shortest mantissa exponent)
        exact ⟨c, rest, form, .inr digit⟩

theorem number_of_first {c : Char} {text left : List Char} {found : Source}
    (first : c = '-' ∨ c.isDigit = true) (scanned : scanScalar (c :: text) = some (found, left)) :
    ∃ numeral, found = .number numeral := by
  rcases first with rfl | digit
  · simp only [scanScalar, Option.map_eq_some_iff, Prod.mk.injEq] at scanned
    obtain ⟨⟨numeral, left⟩, -, rfl, -⟩ := scanned
    exact ⟨numeral, rfl⟩
  · rw [scanScalar_of_digit digit] at scanned
    simp only [Option.map_eq_some_iff, Prod.mk.injEq] at scanned
    obtain ⟨⟨numeral, left⟩, -, rfl, -⟩ := scanned
    exact ⟨numeral, rfl⟩

theorem run_after_end {left : List Char} {found read : Source}
    (ended : run [] (.after found) left = some read) : skipSpaces left = [] ∧ found = read := by
  rw [run.eq_def] at ended
  split at ended
  next empty =>
    cases ended
    exact ⟨empty, rfl⟩
  next => simp at ended

theorem ofText?_null : ofText? (String.ofList ['n', 'u', 'l', 'l']) = some .null := by
  rw [ofText?, Source.ofText?, String.toList_ofList, run_value_scalar rfl, run_end]
  rfl

/-- A number whose text is read back is finite, and its text is a numeral. -/
theorem isNumeral_writeFloat {number : Binary64} (reads : number.ReadsBack) :
    IsNumeral (writeFloat number) (.float number) := by
  unfold Binary64.ReadsBack at reads
  cases number with
  | infinite negative => cases ofText?_null.symm.trans reads
  | nan => cases ofText?_null.symm.trans reads
  | finite negative mantissa exponent =>
      obtain ⟨c, rest, form, first⟩ := first_writeFloat negative mantissa exponent
      have other : ∀ sign : Char, sign ≠ '-' → sign.isDigit = false → c ≠ sign := by
        rintro sign minus noDigit rfl
        simp_all
      simp only [ofText?, Source.ofText?, String.toList_ofList, Option.bind_eq_some_iff] at reads
      obtain ⟨read, structured, value⟩ := reads
      rw [form] at structured ⊢
      rw [run_value (by simp [isSpace, other]) (other _ (by decide) rfl)
        (other _ (by decide) rfl), Option.bind_eq_some_iff] at structured
      obtain ⟨⟨found, left⟩, scanned, ended⟩ := structured
      obtain ⟨spaces, rfl⟩ := run_after_end ended
      obtain ⟨numeral, rfl⟩ := number_of_first first scanned
      exact ⟨numeral, left, scanned, spaces, value⟩

/-! ## The text of a value -/

theorem endsNumeral_cons {c : Char} {rest : List Char} (digit : c.isDigit = false)
    (point : c ≠ '.') (mark : c ≠ 'e' ∧ c ≠ 'E') : EndsNumeral (c :: rest) := by
  intro first member
  cases member
  exact ⟨digit, point, mark⟩

theorem endsNumeral_break (spacing : Spacing) (level : Nat) {rest : List Char}
    (ends : EndsNumeral rest) : EndsNumeral (spacing.break level ++ rest) := by
  cases spacing with
  | tight => exact ends
  | lines => exact endsNumeral_cons rfl (by decide) (by decide)

theorem skipSpaces_break (spacing : Spacing) (level : Nat) (rest : List Char) :
    skipSpaces (spacing.break level ++ rest) = skipSpaces rest := by
  cases spacing with
  | tight => rfl
  | lines =>
      have spaces : ∀ c ∈ '\n' :: List.replicate (2 * level) ' ', isSpace c = true := by
        simp [isSpace]
      exact List.dropWhile_append_of_pos spaces

theorem skipSpaces_append {left : List Char} (spaces : skipSpaces left = []) (rest : List Char) :
    skipSpaces (left ++ rest) = skipSpaces rest :=
  List.dropWhile_append_of_pos (List.dropWhile_eq_nil_iff.1 spaces)

/-- Whether the text of a value without parts is scanned as a structure with that value. -/
structure Scans (scalar : Json) (found : Source) (left : List Char) : Prop where
  scanned : ∀ rest, EndsNumeral rest →
    scanScalar (writeScalar scalar ++ rest) = some (found, left ++ rest)
  spaces : skipSpaces left = []
  value : ∀ depth, found.eval? depth = some scalar

theorem Scans.alone {scalar : Json} {found : Source} {left : List Char}
    (scans : Scans scalar found left) : scanScalar (writeScalar scalar) = some (found, left) := by
  simpa using scans.scanned [] (by simp [EndsNumeral])

theorem scans_of_isNumeral (scalar : Json) (numeral : IsNumeral (writeScalar scalar) scalar) :
    ∃ found left, Scans scalar found left := by
  obtain ⟨numeral, left, scanned, spaces, value⟩ := numeral
  exact ⟨.number numeral, left, fun rest ends => scanScalar_append ends scanned, spaces,
    fun _ => value⟩

/-- Printable values are scalars that can be scanned, put together to arrays and objects. -/
theorem Printable.induct {motive : (value : Json) → value.Printable → Prop}
    (scalar : ∀ scalar (printable : Printable scalar) found left,
      Scans scalar found left → motive scalar printable)
    (arr : ∀ items (printable : ∀ item ∈ items, Printable item),
      (∀ item member, motive item (printable item member)) → motive (.arr items) (.arr printable))
    (obj : ∀ members (distinct : (Members.names members).Nodup)
      (printable : ∀ member ∈ members, Printable member.2),
      (∀ entry member, motive entry.2 (printable entry member)) →
      motive (.obj members) (.obj distinct printable))
    {value : Json} (printable : value.Printable) : motive value printable := by
  induction printable with
  | null => exact scalar .null _ .null [] ⟨fun _ _ => rfl, rfl, fun _ => rfl⟩
  | bool value =>
      cases value with
      | true => exact scalar (.bool true) _ (.bool true) [] ⟨fun _ _ => rfl, rfl, fun _ => rfl⟩
      | false => exact scalar (.bool false) _ (.bool false) [] ⟨fun _ _ => rfl, rfl, fun _ => rfl⟩
  | @int value fits =>
      obtain ⟨found, left, scans⟩ := scans_of_isNumeral (.int value) (isNumeral_writeInt fits)
      exact scalar _ _ found left scans
  | @float value reads =>
      obtain ⟨found, left, scans⟩ := scans_of_isNumeral (.float value) (isNumeral_writeFloat reads)
      exact scalar _ _ found left scans
  | str text =>
      exact scalar (.str text) _ (.string (some text)) []
        ⟨fun rest _ => scanScalar_writeString text rest, rfl, fun _ => rfl⟩
  | arr printable ih => exact arr _ printable ih
  | obj distinct printable ih => exact obj _ distinct printable ih

section

variable {scalar : Json} {found : Source} {left : List Char}

/-- Nothing is written for an array or an object as for a scalar, so neither is scanned. -/
theorem Scans.notNested (scans : Scans scalar found left) :
    (∀ items, scalar ≠ .arr items) ∧ ∀ members, scalar ≠ .obj members := by
  have nothing : scanScalar [] = none := by simp [scanScalar, scanNumeral, takeDigits]
  have scanned := scans.alone
  constructor
  · rintro items rfl
    rw [writeScalar, nothing] at scanned
    cases scanned
  · rintro members rfl
    rw [writeScalar, nothing] at scanned
    cases scanned

theorem source_of_scans (scans : Scans scalar found left) : source scalar = found := by
  rw [source, scans.alone]
  · rfl
  · exact scans.notNested.1
  · exact scans.notNested.2

theorem write_of_scans (scans : Scans scalar found left) (spacing : Spacing) (level : Nat) :
    write spacing level scalar = writeScalar scalar := by
  rw [write]
  · exact scans.notNested.1 []
  · exact fun item rest => scans.notNested.1 (item :: rest)
  · exact scans.notNested.2 []
  · exact fun name item rest => scans.notNested.2 ((name, item) :: rest)

theorem depth_of_scans (scans : Scans scalar found left) : scalar.depth = 0 := by
  rw [depth]
  · exact scans.notNested.1
  · exact scans.notNested.2

end

theorem first_of_write {value : Json} (printable : value.Printable) (spacing : Spacing)
    (level : Nat) :
    ∃ c rest, write spacing level value = c :: rest ∧ isSpace c = false ∧ c ≠ ']' := by
  induction printable using Printable.induct with
  | scalar scalar printable found left scans =>
      have scanned := scans.alone
      rw [write_of_scans scans]
      cases form : writeScalar scalar with
      | nil => simp [form, scanScalar, scanNumeral, takeDigits] at scanned
      | cons c rest =>
          rw [form] at scanned
          obtain ⟨solid, -, -, close⟩ := scanScalar_first scanned
          exact ⟨c, rest, rfl, solid, close⟩
  | arr items =>
      cases items with
      | nil => exact ⟨'[', _, by rw [write], rfl, by decide⟩
      | cons item items => exact ⟨'[', _, by rw [write]; rfl, rfl, by decide⟩
  | obj members =>
      cases members with
      | nil => exact ⟨'\x7b', _, by rw [write], rfl, by decide⟩
      | cons entry members => exact ⟨'\x7b', _, by rw [write]; rfl, rfl, by decide⟩

section

variable {spacing : Spacing} {stack : List Frame} {rest : List Char}

theorem run_break (expect : Expect) (level : Nat) :
    run stack expect (spacing.break level ++ rest) = run stack expect rest :=
  run_congr expect (skipSpaces_break spacing level rest)

theorem run_spacing_colon {members : List (Option String × Source)} {name : Option String} :
    run stack (.colon members name) (spacing.colon ++ rest) =
      run (.members members name :: stack) .value rest := by
  cases spacing with
  | tight => exact run_colon
  | lines => exact run_colon.trans (run_congr _ rfl)

theorem run_writeString {before : List (Option String × Source)} (name : String) :
    run stack (.name before) (writeString name ++ rest) =
      run stack (.colon before (some name)) rest := by
  rw [writeString, List.cons_append, List.cons_append, List.append_assoc, List.singleton_append,
    run_name (scanString_written name.toList rest), textOf_toNat]

theorem run_nameOrEnd_writeString (name : String) :
    run stack .nameOrEnd (writeString name ++ rest) =
      run stack (.colon [] (some name)) rest := by
  rw [writeString, List.cons_append, List.cons_append, List.append_assoc, List.singleton_append,
    run_nameOrEnd (scanString_written name.toList rest), textOf_toNat]

variable (spacing) in
/-- Whether reading goes over what is written for a value and finds its structure. -/
def ReadsOver (value : Json) : Prop :=
  ∀ (level : Nat) (stack : List Frame) (rest : List Char), EndsNumeral rest →
    run stack .value (write spacing level value ++ rest) =
      run stack (.after (source value)) rest

theorem endsNumeral_items (spacing : Spacing) (items : List Json) (level outer : Nat)
    (rest : List Char) :
    EndsNumeral (writeItems spacing level items ++ (spacing.break outer ++ ']' :: rest)) := by
  cases items with
  | nil =>
      apply endsNumeral_break
      exact endsNumeral_cons rfl (by decide) (by decide)
  | cons item items => exact endsNumeral_cons rfl (by decide) (by decide)

theorem endsNumeral_members (spacing : Spacing) (members : List (String × Json))
    (level outer : Nat) (rest : List Char) :
    EndsNumeral
      (writeMembers spacing level members ++ (spacing.break outer ++ '\x7d' :: rest)) := by
  cases members with
  | nil =>
      apply endsNumeral_break
      exact endsNumeral_cons rfl (by decide) (by decide)
  | cons entry members => exact endsNumeral_cons rfl (by decide) (by decide)

theorem run_writeItems {items : List Json} (reads : ∀ item ∈ items, ReadsOver spacing item)
    (level outer : Nat) (before : List Source) (first : Source) :
    run (.items before :: stack) (.after first)
        (writeItems spacing level items ++ (spacing.break outer ++ ']' :: rest)) =
      run stack (.after (.array (before.reverse ++ first :: sourceItems items))) rest := by
  induction items generalizing before first with
  | nil =>
      rw [writeItems, List.nil_append, run_break, run_after_items]
      simp [sourceItems]
  | cons item items ih =>
      have ends := endsNumeral_items spacing items level outer rest
      rw [writeItems]
      simp only [List.cons_append, List.append_assoc]
      rw [run_after_item, run_break, reads item List.mem_cons_self level _ _ ends,
        ih fun other member => reads other (List.mem_cons_of_mem _ member)]
      simp [sourceItems]

theorem run_writeMembers {members : List (String × Json)}
    (reads : ∀ member ∈ members, ReadsOver spacing member.2) (level outer : Nat)
    (before : List (Option String × Source)) (name : Option String) (first : Source) :
    run (.members before name :: stack) (.after first)
        (writeMembers spacing level members ++ (spacing.break outer ++ '\x7d' :: rest)) =
      run stack (.after (.object (before.reverse ++ (name, first) :: sourceMembers members)))
        rest := by
  induction members generalizing before name first with
  | nil =>
      rw [writeMembers, List.nil_append, run_break, run_after_members]
      simp [sourceMembers]
  | cons entry members ih =>
      obtain ⟨other, value⟩ := entry
      have ends := endsNumeral_members spacing members level outer rest
      rw [writeMembers]
      simp only [List.cons_append, List.append_assoc]
      rw [run_after_member, run_break, run_writeString, run_spacing_colon,
        reads (other, value) List.mem_cons_self level _ _ ends,
        ih fun entry member => reads entry (List.mem_cons_of_mem _ member)]
      simp [sourceMembers]

end

theorem readsOver_arr {spacing : Spacing} {items : List Json}
    (printable : ∀ item ∈ items, item.Printable)
    (reads : ∀ item ∈ items, ReadsOver spacing item) : ReadsOver spacing (.arr items) := by
  intro level stack rest ends
  cases items with
  | nil =>
      rw [write]
      exact run_value_array.trans run_itemOrEnd_end
  | cons item items =>
      obtain ⟨c, text, form, solid, close⟩ :=
        first_of_write (printable item List.mem_cons_self) spacing (level + 1)
      have ends := endsNumeral_items spacing items (level + 1) level rest
      rw [write]
      simp only [List.cons_append, List.append_assoc, List.nil_append]
      rw [run_value_array, run_break, form, List.cons_append, run_itemOrEnd solid close,
        ← List.cons_append, ← form, reads item List.mem_cons_self _ _ _ ends,
        run_writeItems fun other member => reads other (List.mem_cons_of_mem _ member)]
      rfl

theorem readsOver_obj {spacing : Spacing} {members : List (String × Json)}
    (reads : ∀ member ∈ members, ReadsOver spacing member.2) :
    ReadsOver spacing (.obj members) := by
  intro level stack rest ends
  cases members with
  | nil =>
      rw [write]
      exact run_value_object.trans run_nameOrEnd_end
  | cons entry members =>
      obtain ⟨name, value⟩ := entry
      have ends := endsNumeral_members spacing members (level + 1) level rest
      rw [write]
      simp only [List.cons_append, List.append_assoc, List.nil_append]
      rw [run_value_object, run_break, run_nameOrEnd_writeString, run_spacing_colon,
        reads (name, value) List.mem_cons_self _ _ _ ends,
        run_writeMembers fun entry member => reads entry (List.mem_cons_of_mem _ member)]
      rfl

theorem readsOver {value : Json} (printable : value.Printable) (spacing : Spacing) :
    ReadsOver spacing value := by
  induction printable using Printable.induct with
  | scalar scalar printable found left scans =>
      intro level stack rest ends
      rw [write_of_scans scans, run_value_scalar (scans.scanned rest ends), source_of_scans scans]
      exact run_congr _ (skipSpaces_append scans.spaces rest)
  | arr items printable ih => exact readsOver_arr printable ih
  | obj members distinct printable ih => exact readsOver_obj ih

/-- The text of a value has the structure of the value. -/
theorem ofText?_pretty {value : Json} (printable : value.Printable) :
    Source.ofText? value.pretty = some (source value) := by
  have ends : EndsNumeral ['\n'] := endsNumeral_cons rfl (by decide) (by decide)
  have trailing : run [] (.after (source value)) ['\n'] = run [] (.after (source value)) [] :=
    run_congr _ rfl
  rw [Source.ofText?, pretty, String.toList_ofList, readsOver printable .lines 0 [] _ ends,
    trailing, run_end]

/-! ## The value of a structure -/

theorem evalItems?_source {items : List Json} {depth : Nat}
    (values : ∀ item ∈ items, (source item).eval? depth =
      if item.depth ≤ depth then some item else none) :
    Source.evalItems? depth (sourceItems items) =
      if depthOfItems items ≤ depth then some items else none := by
  induction items with
  | nil => simp [sourceItems, Source.evalItems?, depthOfItems]
  | cons item items ih =>
      have head := values item List.mem_cons_self
      have tail := ih fun other member => values other (List.mem_cons_of_mem _ member)
      simp only [sourceItems, Source.evalItems?, head, tail, depthOfItems, Nat.max_le]
      by_cases first : item.depth ≤ depth
      · by_cases others : depthOfItems items ≤ depth
        · simp [first, others]
        · simp [first, others]
      · simp [first]

theorem evalMembers?_source {members : List (String × Json)} {depth : Nat}
    (values : ∀ member ∈ members, (source member.2).eval? depth =
      if member.2.depth ≤ depth then some member.2 else none) :
    Source.evalMembers? depth (sourceMembers members) =
      if depthOfMembers members ≤ depth then some members else none := by
  induction members with
  | nil => simp [sourceMembers, Source.evalMembers?, depthOfMembers]
  | cons entry members ih =>
      obtain ⟨name, value⟩ := entry
      have head := values (name, value) List.mem_cons_self
      have tail := ih fun entry member => values entry (List.mem_cons_of_mem _ member)
      simp only [sourceMembers, Source.evalMembers?, head, tail, depthOfMembers, Nat.max_le]
      by_cases first : value.depth ≤ depth
      · by_cases others : depthOfMembers members ≤ depth
        · simp [first, others]
        · simp [first, others]
      · simp [first]

/-- What is written for a value has that value, unless it is nested too deeply. -/
theorem eval?_source {value : Json} (printable : value.Printable) (depth : Nat) :
    (source value).eval? depth = if value.depth ≤ depth then some value else none := by
  induction printable using Printable.induct generalizing depth with
  | scalar scalar printable found left scans =>
      rw [source_of_scans scans, scans.value, depth_of_scans scans, if_pos (Nat.zero_le depth)]
  | arr items printable ih =>
      rw [source, Source.eval?.eq_def, Json.depth.eq_def]
      cases depth with
      | zero => simp
      | succ depth =>
          simp only [evalItems?_source fun item member => ih item member depth]
          split <;> simp_all
  | obj members distinct printable ih =>
      rw [source, Source.eval?.eq_def, Json.depth.eq_def]
      cases depth with
      | zero => simp
      | succ depth =>
          simp only [evalMembers?_source fun entry member => ih entry member depth]
          split <;> simp_all

end Json

end KeyLayers
