import KeyLayers.FileSystem
import KeyLayers.Proofs.Outcome

/-!
# The way of a path

To follow a path is to go from directory to directory, over links, as far as its
segments last.  What a path leads to depends only on the directories and links
on its way: a file system that has all of those of another one leads the same
way, and a path can be cut anywhere, since what comes first decides where the
rest begins.
-/

namespace KeyLayers

namespace Path

/-- A segment that leads down to something. -/
def IsName (segment : String) : Prop :=
  isIdle segment = false ∧ segment ≠ ".."

/-- The segments that mean something. -/
def live (segments : List String) : List String :=
  segments.filter (!isIdle ·)

theorem live_append (front rest : List String) : live (front ++ rest) = live front ++ live rest :=
  List.filter_append ..

theorem live_cons (segment : String) (rest : List String) :
    live (segment :: rest) = live [segment] ++ live rest :=
  live_append [segment] rest

theorem live_live (segments : List String) : live (live segments) = live segments := by
  simp [live]

theorem live_of_idle {segments : List String} (idle : ∀ segment ∈ segments, isIdle segment) :
    live segments = [] := by
  simp only [live, List.filter_eq_nil_iff, Bool.not_eq_true', Bool.not_eq_false]
  exact idle

end Path

namespace FileSystem

/-- What the entry at a place is. -/
def nodeAt? (files : FileSystem) (place : Place) : Option Node :=
  (files.entryAt? place).map Entry.node

theorem nodeAt?_root (files : FileSystem) : files.nodeAt? [] = some .directory := by
  simp [nodeAt?, entryAt?]

theorem nodeAt?_eq_none_iff {files : FileSystem} {place : Place} :
    files.nodeAt? place = none ↔ files.entryAt? place = none := by
  simp [nodeAt?]

theorem nodeAt?_of_entryAt? {files : FileSystem} {place : Place} {entry : Entry}
    (found : files.entryAt? place = some entry) : files.nodeAt? place = some entry.node := by
  simp [nodeAt?, found]

/-! ## One segment -/

section

variable {files : FileSystem} {follow : Bool} {links : Nat} {place : Place}
  {segment : String} {rest : List String}

theorem walk_nil : files.walk follow links place [] = .ok place := by
  rw [walk]

theorem walk_idle (idle : Path.isIdle segment = true) :
    files.walk follow links place (segment :: rest) = files.walk follow links place rest := by
  rw [walk, if_pos idle]

theorem walk_up :
    files.walk follow links place (".." :: rest) =
      files.walk follow links place.dropLast rest := by
  rw [walk, if_neg (by decide), if_pos rfl]

theorem walk_name (named : Path.IsName segment) :
    files.walk follow links place (segment :: rest) =
      match files.nodeAt? (place ++ [segment]) with
      | some .directory => files.walk follow links (place ++ [segment]) rest
      | some (.file _) => if rest.isEmpty then .ok (place ++ [segment]) else .error .notADirectory
      | some (.link target) =>
          if rest.isEmpty && !follow then .ok (place ++ [segment])
          else
            match links with
            | 0 => .error .tooManyLinks
            | links + 1 =>
                files.walk follow links (if target.isAbsolute then [] else place)
                  (target.segments ++ rest)
      | none => if rest.isEmpty then .ok (place ++ [segment]) else .error .notFound := by
  rw [walk, if_neg (by simp [named.1]), if_neg named.2]
  rfl

theorem walk_directory (named : Path.IsName segment)
    (node : files.nodeAt? (place ++ [segment]) = some .directory) :
    files.walk follow links place (segment :: rest) =
      files.walk follow links (place ++ [segment]) rest := by
  rw [walk_name named, node]

theorem walk_link {target : Path} (named : Path.IsName segment)
    (node : files.nodeAt? (place ++ [segment]) = some (.link target))
    (on : follow = true ∨ rest ≠ []) :
    files.walk follow (links + 1) place (segment :: rest) =
      files.walk follow links (if target.isAbsolute then [] else place)
        (target.segments ++ rest) := by
  have passed : (rest.isEmpty && !follow) = false := by
    rcases on with rfl | onward
    · simp
    · simp [onward]
  simp only [walk_name named, node, passed, Bool.false_eq_true, if_false]

/-- A name at the end of a path is found at its own place, unless it is a link to be followed. -/
theorem walk_last (named : Path.IsName segment)
    (ends : follow = true → ∀ target, files.nodeAt? (place ++ [segment]) ≠ some (.link target)) :
    files.walk follow links place [segment] = .ok (place ++ [segment]) := by
  rw [walk_name named]
  generalize files.nodeAt? (place ++ [segment]) = node at ends
  cases node with
  | none => rfl
  | some node =>
      cases node with
      | file content => rfl
      | directory => exact walk_nil
      | link target =>
          cases follow with
          | false => rfl
          | true => exact absurd rfl (ends rfl target)

end

/-- What holds after one segment, and after each link that leaves fewer to be followed. -/
@[elab_as_elim]
theorem segments_induction {motive : Nat → List String → Prop}
    (nil : ∀ links, motive links [])
    (idle : ∀ links segment rest, Path.isIdle segment = true → motive links rest →
      motive links (segment :: rest))
    (up : ∀ links rest, motive links rest → motive links (".." :: rest))
    (name : ∀ links segment rest, Path.IsName segment → motive links rest →
      (∀ fewer segments, links = fewer + 1 → motive fewer segments) →
        motive links (segment :: rest))
    (links : Nat) (segments : List String) : motive links segments := by
  induction links generalizing segments with
  | zero =>
      induction segments with
      | nil => exact nil 0
      | cons segment rest ih =>
          by_cases isIdle : Path.isIdle segment = true
          · exact idle 0 segment rest isIdle ih
          · by_cases isUp : segment = ".."
            · exact isUp ▸ up 0 rest ih
            · exact name 0 segment rest ⟨by simpa using isIdle, isUp⟩ ih nofun
  | succ links fewer =>
      induction segments with
      | nil => exact nil _
      | cons segment rest ih =>
          by_cases isIdle : Path.isIdle segment = true
          · exact idle _ segment rest isIdle ih
          · by_cases isUp : segment = ".."
            · exact isUp ▸ up _ rest ih
            · apply name _ segment rest ⟨by simpa using isIdle, isUp⟩ ih
              intro less segments same
              cases same
              exact fewer segments

/-- Segments that mean nothing may be left out, except at the end. -/
theorem walk_live (files : FileSystem) (follow : Bool) {rest : List String} (onward : rest ≠ [])
    (links : Nat) (place : Place) (front : List String) :
    files.walk follow links place (front ++ rest) =
      files.walk follow links place (Path.live front ++ rest) := by
  induction links, front using segments_induction generalizing place with
  | nil => rfl
  | idle links segment front idle ih =>
      rw [List.cons_append, walk_idle idle, ih, Path.live, Path.live,
        List.filter_cons_of_neg (by simp [idle])]
  | up links front ih =>
      rw [Path.live, List.filter_cons_of_pos (by decide), List.cons_append, List.cons_append,
        walk_up, walk_up, ih, Path.live]
  | name links segment front named ih fewer =>
      have more (list : List String) : (list ++ rest).isEmpty = false := by simp [onward]
      have live_eq : Path.live (segment :: front) = segment :: Path.live front :=
        List.filter_cons_of_pos (by simp [named.1])
      rw [live_eq, List.cons_append, List.cons_append, walk_name named, walk_name named]
      cases files.nodeAt? (place ++ [segment]) with
      | none => simp only [more]
      | some node =>
          cases node with
          | file content => simp only [more]
          | directory => exact ih _
          | link target =>
              simp only [more, Bool.false_and, Bool.false_eq_true, if_false]
              cases links with
              | zero => rfl
              | succ links =>
                  simp only [← List.append_assoc]
                  rw [fewer links (target.segments ++ front) rfl,
                    fewer links (target.segments ++ Path.live front) rfl, Path.live_append,
                    Path.live_append, Path.live_live]

theorem walk_congr_front (files : FileSystem) (follow : Bool) {rest : List String}
    (onward : rest ≠ []) (links : Nat) (place : Place) {front other : List String}
    (same : Path.live front = Path.live other) :
    files.walk follow links place (front ++ rest) =
      files.walk follow links place (other ++ rest) := by
  rw [walk_live files follow onward, same, ← walk_live files follow onward]

/-! ## Ways from directory to directory -/

/--
The segments lead from one place to another through directories and over links,
of which only so many may be followed and so many are left.
-/
inductive Way (files : FileSystem) : Nat → Place → List String → Nat → Place → Prop where
  | here (links : Nat) (place : Place) : Way files links place [] links place
  | idle {links left : Nat} {place last : Place} {segment : String} {rest : List String}
      (idle : Path.isIdle segment = true) (way : Way files links place rest left last) :
      Way files links place (segment :: rest) left last
  | up {links left : Nat} {place last : Place} {rest : List String}
      (way : Way files links place.dropLast rest left last) :
      Way files links place (".." :: rest) left last
  | enter {links left : Nat} {place last : Place} {segment : String} {rest : List String}
      (named : Path.IsName segment)
      (node : files.nodeAt? (place ++ [segment]) = some .directory)
      (way : Way files links (place ++ [segment]) rest left last) :
      Way files links place (segment :: rest) left last
  | follow {links left : Nat} {place last : Place} {segment : String} {rest : List String}
      {target : Path} (named : Path.IsName segment)
      (node : files.nodeAt? (place ++ [segment]) = some (.link target))
      (way : Way files links (if target.isAbsolute then [] else place)
        (target.segments ++ rest) left last) :
      Way files (links + 1) place (segment :: rest) left last

section

variable {files : FileSystem} {links left : Nat} {place last : Place} {front rest : List String}

theorem Way.walk_append (way : Way files links place front left last) {follow : Bool}
    (on : follow = true ∨ rest ≠ []) :
    files.walk follow links place (front ++ rest) = files.walk follow left last rest := by
  induction way with
  | here => rfl
  | idle idle way ih => rw [List.cons_append, walk_idle idle, ih]
  | up way ih => rw [List.cons_append, walk_up, ih]
  | enter named node way ih => rw [List.cons_append, walk_directory named node, ih]
  | @follow links left place last segment more target named node way ih =>
      have beyond : follow = true ∨ more ++ rest ≠ [] := by
        rcases on with on | onward
        · exact Or.inl on
        · exact Or.inr (by simp [onward])
      rw [List.cons_append, walk_link named node beyond, ← List.append_assoc, ih]

theorem Way.walk_eq (way : Way files links place front left last) :
    files.walk true links place front = .ok last := by
  rw [← List.append_nil front, way.walk_append (Or.inl rfl), walk_nil]

/-- Whoever gets on has a way behind him. -/
theorem way_of_walk {follow : Bool} {result : Place} (onward : rest ≠ [])
    (reached : files.walk follow links place (front ++ rest) = .ok result) :
    ∃ left last, Way files links place front left last := by
  induction links, front using segments_induction generalizing place with
  | nil links => exact ⟨links, place, .here links place⟩
  | idle links segment front idle ih =>
      rw [List.cons_append, walk_idle idle] at reached
      rcases ih reached with ⟨left, last, way⟩
      exact ⟨left, last, .idle idle way⟩
  | up links front ih =>
      rw [List.cons_append, walk_up] at reached
      rcases ih reached with ⟨left, last, way⟩
      exact ⟨left, last, .up way⟩
  | name links segment front named ih fewer =>
      have more : (front ++ rest).isEmpty = false := by simp [onward]
      rw [List.cons_append, walk_name named] at reached
      cases node : files.nodeAt? (place ++ [segment]) with
      | none => simp [node, more] at reached
      | some entry =>
          cases entry with
          | file content => simp [node, more] at reached
          | directory =>
              simp only [node] at reached
              rcases ih reached with ⟨left, last, way⟩
              exact ⟨left, last, .enter named node way⟩
          | link target =>
              simp only [node, more, Bool.false_and, Bool.false_eq_true, if_false] at reached
              cases links with
              | zero => cases reached
              | succ links =>
                  rw [← List.append_assoc] at reached
                  rcases fewer links _ rfl reached with ⟨left, last, way⟩
                  exact ⟨left, last, .follow named node way⟩

/-- There is a way to every directory that a path leads to. -/
theorem way_of_directory (reached : files.walk true links place front = .ok last)
    (directory : files.nodeAt? last = some .directory) :
    ∃ left, Way files links place front left last := by
  induction links, front using segments_induction generalizing place with
  | nil links =>
      rw [walk_nil] at reached
      cases reached
      exact ⟨links, .here links _⟩
  | idle links segment front idle ih =>
      rw [walk_idle idle] at reached
      rcases ih reached with ⟨left, way⟩
      exact ⟨left, .idle idle way⟩
  | up links front ih =>
      rw [walk_up] at reached
      rcases ih reached with ⟨left, way⟩
      exact ⟨left, .up way⟩
  | name links segment front named ih fewer =>
      rw [walk_name named] at reached
      cases node : files.nodeAt? (place ++ [segment]) with
      | none =>
          simp only [node] at reached
          split at reached
          · cases reached
            simp [node] at directory
          · cases reached
      | some entry =>
          cases entry with
          | file content =>
              simp only [node] at reached
              split at reached
              · cases reached
                simp [node] at directory
              · cases reached
          | directory =>
              simp only [node] at reached
              rcases ih reached with ⟨left, way⟩
              exact ⟨left, .enter named node way⟩
          | link target =>
              simp only [node, Bool.not_true, Bool.and_false, Bool.false_eq_true, if_false]
                at reached
              cases links with
              | zero => cases reached
              | succ links =>
                  rcases fewer links _ rfl reached with ⟨left, way⟩
                  exact ⟨left, .follow named node way⟩

theorem Way.split {other : List String} (way : Way files links place (front ++ other) left last) :
    ∃ between middle, Way files links place front between middle ∧
      Way files between middle other left last := by
  generalize whole : front ++ other = segments at way
  induction way generalizing front with
  | here links place =>
      rcases List.append_eq_nil_iff.1 whole with ⟨rfl, rfl⟩
      exact ⟨links, place, .here links place, .here links place⟩
  | @idle links left place last segment rest idle way ih =>
      cases front with
      | nil =>
          obtain rfl : other = segment :: rest := whole
          exact ⟨links, place, .here links place, .idle idle way⟩
      | cons first more =>
          cases whole
          rcases ih rfl with ⟨between, middle, before, after⟩
          exact ⟨between, middle, .idle idle before, after⟩
  | @up links left place last rest way ih =>
      cases front with
      | nil =>
          obtain rfl : other = ".." :: rest := whole
          exact ⟨links, place, .here links place, .up way⟩
      | cons first more =>
          cases whole
          rcases ih rfl with ⟨between, middle, before, after⟩
          exact ⟨between, middle, .up before, after⟩
  | @enter links left place last segment rest named node way ih =>
      cases front with
      | nil =>
          obtain rfl : other = segment :: rest := whole
          exact ⟨links, place, .here links place, .enter named node way⟩
      | cons first more =>
          cases whole
          rcases ih rfl with ⟨between, middle, before, after⟩
          exact ⟨between, middle, .enter named node before, after⟩
  | @follow links left place last segment rest target named node way ih =>
      cases front with
      | nil =>
          obtain rfl : other = segment :: rest := whole
          exact ⟨links + 1, place, .here _ place, .follow named node way⟩
      | cons first more =>
          cases whole
          rcases ih (List.append_assoc target.segments more other) with
            ⟨between, middle, before, after⟩
          exact ⟨between, middle, .follow named node before, after⟩

/-- With more links to be followed a path leads to the same place. -/
theorem walk_more_links {follow : Bool} (more : Nat)
    (reached : files.walk follow links place front = .ok last) :
    files.walk follow (links + more) place front = .ok last := by
  induction links, front using segments_induction generalizing place with
  | nil links =>
      rw [walk_nil] at reached ⊢
      exact reached
  | idle links segment front idle ih =>
      rw [walk_idle idle] at reached ⊢
      exact ih reached
  | up links front ih =>
      rw [walk_up] at reached ⊢
      exact ih reached
  | name links segment front named ih fewer =>
      rw [walk_name named] at reached ⊢
      cases node : files.nodeAt? (place ++ [segment]) with
      | none => rwa [node] at reached
      | some entry =>
          cases entry with
          | file content => rwa [node] at reached
          | directory =>
              simp only [node] at reached ⊢
              exact ih reached
          | link target =>
              simp only [node] at reached ⊢
              split
              case isTrue spent => rwa [if_pos spent] at reached
              case isFalse on =>
                rw [if_neg on] at reached
                cases links with
                | zero => cases reached
                | succ links =>
                    rw [Nat.add_right_comm]
                    exact fewer links _ rfl reached

theorem walk_unique {follow : Bool} {other : Nat} {found : Place}
    (reached : files.walk follow links place front = .ok last)
    (again : files.walk follow other place front = .ok found) : last = found := by
  have first := walk_more_links other reached
  have second := walk_more_links links again
  rw [Nat.add_comm, second] at first
  cases first
  rfl

/-! ## Places below directories -/

/-- A place that is a directory, like all places above it. -/
def Grounded (files : FileSystem) (place : Place) : Prop :=
  ∀ above, above <+: place → files.nodeAt? above = some .directory

theorem Grounded.directory (grounded : files.Grounded place) :
    files.nodeAt? place = some .directory :=
  grounded place (List.prefix_refl place)

theorem grounded_root (files : FileSystem) : files.Grounded [] := by
  intro above within
  rw [List.prefix_nil.1 within]
  exact files.nodeAt?_root

theorem Grounded.dropLast (grounded : files.Grounded place) : files.Grounded place.dropLast :=
  fun above within => grounded above (within.trans (List.dropLast_prefix place))

theorem Grounded.enter (grounded : files.Grounded place) {segment : String}
    (node : files.nodeAt? (place ++ [segment]) = some .directory) :
    files.Grounded (place ++ [segment]) := by
  intro above within
  rcases List.prefix_concat_iff.1 within with rfl | within
  · exact node
  · exact grounded above within

theorem Way.grounded (way : Way files links place front left last)
    (grounded : files.Grounded place) : files.Grounded last := by
  induction way with
  | here => exact grounded
  | idle idle way ih => exact ih grounded
  | up way ih => exact ih grounded.dropLast
  | enter named node way ih => exact ih (grounded.enter node)
  | @follow links left place last segment rest target named node way ih =>
      apply ih
      split
      · exact files.grounded_root
      · exact grounded

/-- What is no directory is found under a name at the end of its path. -/
theorem exists_of_walk_not_directory {follow : Bool} (grounded : files.Grounded place)
    (reached : files.walk follow links place front = .ok last)
    (other : files.nodeAt? last ≠ some .directory) :
    ∃ above name directory left, front = above ++ [name] ∧ Path.IsName name ∧
      Way files links place above left directory ∧
        files.walk follow left directory [name] = .ok last := by
  rcases List.eq_nil_or_concat front with rfl | ⟨above, segment, split⟩
  · rw [walk_nil] at reached
    cases reached
    exact absurd grounded.directory other
  · rw [List.concat_eq_append] at split
    subst split
    rcases way_of_walk (by simp) reached with ⟨left, directory, way⟩
    have inside := way.grounded grounded
    rw [way.walk_append (Or.inr (by simp))] at reached
    by_cases idle : Path.isIdle segment = true
    · rw [walk_idle idle, walk_nil] at reached
      cases reached
      exact absurd inside.directory other
    · by_cases up : segment = ".."
      · rw [up, walk_up, walk_nil] at reached
        cases reached
        exact absurd inside.dropLast.directory other
      · exact ⟨above, segment, directory, left, rfl, ⟨by simpa using idle, up⟩, way, reached⟩

end

/-! ## Different files, the same way -/

/-- All directories and links of one file system are in another one. -/
structure Includes (larger smaller : FileSystem) : Prop where
  directory : ∀ place, smaller.nodeAt? place = some .directory →
    larger.nodeAt? place = some .directory
  link : ∀ place target, smaller.nodeAt? place = some (.link target) →
    larger.nodeAt? place = some (.link target)
  workingPlace : larger.workingPlace = smaller.workingPlace

theorem Includes.refl (files : FileSystem) : files.Includes files where
  directory _ found := found
  link _ _ found := found
  workingPlace := rfl

theorem Includes.trans {larger middle smaller : FileSystem} (first : larger.Includes middle)
    (second : middle.Includes smaller) : larger.Includes smaller where
  directory place found := first.directory place (second.directory place found)
  link place target found := first.link place target (second.link place target found)
  workingPlace := first.workingPlace.trans second.workingPlace

section

variable {larger smaller : FileSystem} {links left : Nat} {place last : Place}
  {segments : List String}

theorem Way.of_includes (includes : larger.Includes smaller)
    (way : Way smaller links place segments left last) :
    Way larger links place segments left last := by
  induction way with
  | here links place => exact .here links place
  | idle idle way ih => exact .idle idle ih
  | up way ih => exact .up ih
  | enter named node way ih => exact .enter named (includes.directory _ node) ih
  | follow named node way ih => exact .follow named (includes.link _ _ node) ih

theorem Includes.walk_eq (includes : larger.Includes smaller) {follow : Bool}
    (ends : follow = true → ∀ target, larger.nodeAt? last ≠ some (.link target))
    (reached : smaller.walk follow links place segments = .ok last) :
    larger.walk follow links place segments = .ok last := by
  induction links, segments using segments_induction generalizing place with
  | nil links =>
      rw [walk_nil] at reached ⊢
      exact reached
  | idle links segment rest idle ih =>
      rw [walk_idle idle] at reached ⊢
      exact ih reached
  | up links rest ih =>
      rw [walk_up] at reached ⊢
      exact ih reached
  | name links segment rest named ih fewer =>
      -- without a directory or a link to be followed the name is the last one
      have final (spent : rest.isEmpty = true)
          (same : Except.ok (place ++ [segment]) = (.ok last : Except Fault Place)) :
          larger.walk follow links place (segment :: rest) = .ok last := by
        rw [List.isEmpty_iff.1 spent]
        cases same
        exact walk_last named ends
      rw [walk_name named] at reached
      cases node : smaller.nodeAt? (place ++ [segment]) with
      | none =>
          simp only [node] at reached
          split at reached
          case isTrue spent => exact final spent reached
          case isFalse => cases reached
      | some entry =>
          cases entry with
          | file content =>
              simp only [node] at reached
              split at reached
              case isTrue spent => exact final spent reached
              case isFalse => cases reached
          | directory =>
              simp only [node] at reached
              rw [walk_directory named (includes.directory _ node)]
              exact ih reached
          | link target =>
              simp only [node] at reached
              split at reached
              case isTrue spent =>
                rw [Bool.and_eq_true] at spent
                exact final spent.1 reached
              case isFalse on =>
                cases links with
                | zero => cases reached
                | succ links =>
                    have beyond : follow = true ∨ rest ≠ [] := by
                      cases follow <;> simp_all
                    rw [walk_link named (includes.link _ _ node) beyond]
                    exact fewer links _ rfl reached

theorem Includes.locate_eq (includes : larger.Includes smaller) {follow : Bool} {path : Path}
    (ends : follow = true → ∀ target, larger.nodeAt? last ≠ some (.link target))
    (reached : smaller.locate follow path = .ok last) : larger.locate follow path = .ok last := by
  rw [locate] at reached ⊢
  split
  case isTrue none => simp [none] at reached
  case isFalse some =>
    rw [if_neg some] at reached
    rw [includes.workingPlace]
    exact includes.walk_eq ends reached

end

end FileSystem

end KeyLayers
