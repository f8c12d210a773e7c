/-!
# Paths

A path is a text that is cut into segments at its slashes.  No segment is
dropped, so the text of a path is exactly the text it was made from; segments
that are empty or a single dot just mean nothing when the path is followed.

The directory of a path and its last name are found from the end, where
segments that mean nothing are passed over.
-/

namespace KeyLayers

/-- The segments between the slashes of a path. -/
structure Path where
  segments : List String
deriving DecidableEq, Repr

namespace Path

/-- Cuts a text at each slash. -/
def cutAtSlashes : List Char → List (List Char)
  | [] => [[]]
  | c :: rest =>
      if c = '/' then [] :: cutAtSlashes rest
      else
        match cutAtSlashes rest with
        | [] => [[c]]
        | first :: others => (c :: first) :: others

/-- The path with a given text. -/
def ofText (text : String) : Path :=
  ⟨(cutAtSlashes text.toList).map String.ofList⟩

/-- The text of a path. -/
def text (path : Path) : String :=
  String.intercalate "/" path.segments

theorem cutAtSlashes_ne_nil (text : List Char) : cutAtSlashes text ≠ [] := by
  cases text with
  | nil => simp [cutAtSlashes]
  | cons c rest =>
      unfold cutAtSlashes
      split
      · simp
      · split <;> simp

theorem intercalate_cutAtSlashes (text : List Char) :
    ['/'].intercalate (cutAtSlashes text) = text := by
  induction text with
  | nil => rfl
  | cons c rest ih =>
      unfold cutAtSlashes
      have some_ := cutAtSlashes_ne_nil rest
      split
      · rename_i slash
        cases cut : cutAtSlashes rest with
        | nil => exact absurd cut some_
        | cons first others => simp_all [List.intercalate]
      · split
        · exact absurd ‹_› some_
        · rename_i first others cut
          rw [cut] at ih
          rw [← ih]
          cases others <;> simp [List.intercalate]

/-- Cutting a text loses nothing. -/
theorem text_ofText (text : String) : (ofText text).text = text := by
  rw [← String.toList_inj]
  simp [ofText, Path.text, String.toList_intercalate, Function.comp_def,
    intercalate_cutAtSlashes]

/-- The path that has no text. -/
def empty : Path := ⟨[""]⟩

/-- The directory that a path without a directory is in. -/
def here : Path := ⟨["."]⟩

/-- Whether a path begins at the root. -/
def isAbsolute (path : Path) : Bool :=
  match path.segments with
  | "" :: _ :: _ => true
  | _ => false

/-- Whether a segment means nothing when a path is followed. -/
def isIdle (segment : String) : Bool :=
  segment == "" || segment == "."

/-- Removes the segments at the end that mean nothing. -/
def dropIdleEnd : List String → List String
  | [] => []
  | segment :: rest =>
      match dropIdleEnd rest with
      | [] => if isIdle segment then [] else [segment]
      | kept => segment :: kept

theorem length_dropIdleEnd_le (segments : List String) :
    (dropIdleEnd segments).length ≤ segments.length := by
  induction segments with
  | nil => simp [dropIdleEnd]
  | cons segment rest ih =>
      unfold dropIdleEnd
      split
      · split <;> simp
      · simpa using ih

/-- The last name of a path, unless it ends at the root or in two dots. -/
def name? (path : Path) : Option String :=
  match path.segments with
  | [] => none
  | first :: rest =>
      let last := (dropIdleEnd rest).getLast?.getD first
      if isIdle last || last == ".." then none else some last

/-- The path without its last name; the root and the empty path have none. -/
def parent? (path : Path) : Option Path :=
  match path.segments with
  | [] => none
  | first :: rest =>
      match dropIdleEnd rest with
      | [] => if first = "" then none else some empty
      | kept =>
          match dropIdleEnd kept.dropLast with
          | [] => some (if first = "" then ⟨["", ""]⟩ else ⟨[first]⟩)
          | above => some ⟨first :: above⟩

/-- The directory that holds what a path leads to. -/
def directory (path : Path) : Path :=
  match path.parent? with
  | some parent => if parent = empty then here else parent
  | none => here

/-- The path that goes on from a directory; an absolute path stands for itself. -/
def join (base next : Path) : Path :=
  if next.isAbsolute then next
  else if base.segments.getLast? = some "" then ⟨base.segments.dropLast ++ next.segments⟩
  else ⟨base.segments ++ next.segments⟩

/-- The path of something with a given name in a directory. -/
def child (base : Path) (name : String) : Path :=
  base.join ⟨[name]⟩

/-- The number of directories above a path, as far as its text tells. -/
def depth (path : Path) : Nat :=
  match path.segments with
  | [] => 0
  | first :: rest => (if first = "" then 0 else 1) + (dropIdleEnd rest).length

theorem depth_parent_lt {path parent : Path} (found : path.parent? = some parent) :
    parent.depth < path.depth := by
  obtain ⟨segments⟩ := path
  cases segments with
  | nil => simp [parent?] at found
  | cons first rest =>
      simp only [parent?] at found
      cases kept : dropIdleEnd rest with
      | nil =>
          by_cases root : first = "" <;> simp only [kept, root, if_true, if_false] at found
          · cases found
          · cases found
            simp only [depth, empty, dropIdleEnd, kept, root, if_true, if_false]
            decide
      | cons last others =>
          have bound := length_dropIdleEnd_le (last :: others).dropLast
          have shorter : (last :: others).dropLast.length < (last :: others).length := by simp
          simp only [kept] at found
          cases above : dropIdleEnd (last :: others).dropLast with
          | nil =>
              by_cases root : first = "" <;>
                simp only [above, root, if_true, if_false] at found <;>
                cases found <;> simp [depth, dropIdleEnd, isIdle, kept, root]
          | cons top more =>
              simp only [above] at found
              cases found
              have again := length_dropIdleEnd_le (top :: more)
              simp only [depth, kept]
              rw [above] at bound
              omega

end Path

end KeyLayers
