import KeyLayers.Proofs.Layer.Emission
import KeyLayers.Proofs.Layer.Expansion
import KeyLayers.Proofs.Repetition

/-!
# What an allocator answers

An allocator is asked for keys and for variables in any order.  Its answer to a
request is known from the requests before it: a variable is that of its path, and
a key is refused exactly where an earlier claim on it was granted
(`Allocator.runs_of_new`).

The claims that were granted, and the paths that were allocated, can be read off
the tables of the allocator, and every request keeps it that way.  A refused claim
leaves an entry in the table of claims, but none that a later request could tell
from its absence.
-/

namespace KeyLayers

namespace Allocator

/-! ## Requests and answers -/

/-- What an allocator can be asked for. -/
inductive Request where
  | claim (path : LeaderPath) (key : Key) (spelling : String)
  | allocate (path : LeaderPath)

/-- What an allocator answers. -/
inductive Answer where
  | granted
  | refused (error : CompileError)
  | given (state : StateVariable)

/-- The path whose variable is asked for. -/
def Request.allocated? : Request → Option LeaderPath
  | claim _ _ _ => none
  | allocate path => some path

/-- The allocator with other claims under a path. -/
def putClaims (allocator : Allocator) (path : LeaderPath) (claims : Claims) : Allocator :=
  { allocator with claimed := (path, claims) :: allocator.claimed }

/-- The answer to a request. -/
def answer (allocator : Allocator) : Request → Answer
  | .claim path key spelling =>
      match allocator.claim path key spelling with
      | .ok _ => .granted
      | .error error => .refused error
  | .allocate path => .given (allocator.allocate path).1

/--
The allocator after a request.  A claim makes an entry for its path before it looks
for its key, so there is one even after a refusal.
-/
def next (allocator : Allocator) : Request → Allocator
  | .claim path key spelling =>
      match allocator.claim path key spelling with
      | .ok claimed => claimed
      | .error _ => allocator.putClaims path (allocator.claimsAt path)
  | .allocate path => (allocator.allocate path).2

/-- The allocator after some requests. -/
def after (allocator : Allocator) (requests : List Request) : Allocator :=
  requests.foldl next allocator

/-- The answers to some requests, one after the other. -/
def answers (allocator : Allocator) : List Request → List Answer
  | [] => []
  | request :: rest => allocator.answer request :: (allocator.next request).answers rest

theorem after_append (allocator : Allocator) (earlier later : List Request) :
    allocator.after (earlier ++ later) = (allocator.after earlier).after later :=
  List.foldl_append

theorem after_concat (allocator : Allocator) (earlier : List Request) (request : Request) :
    allocator.after (earlier ++ [request]) = (allocator.after earlier).next request :=
  after_append allocator earlier [request]

/-- Whether one of some requests was a claim on a key that was granted in a spelling. -/
def Granted (start : Allocator) (requests : List Request) (path : LeaderPath) (key : Key)
    (spelling : String) : Prop :=
  ∃ earlier later, requests = earlier ++ .claim path key spelling :: later ∧
    (start.after earlier).answer (.claim path key spelling) = .granted

theorem granted_concat {start : Allocator} {requests : List Request} {request : Request}
    {path : LeaderPath} {key : Key} {spelling : String} :
    start.Granted (requests ++ [request]) path key spelling ↔
      start.Granted requests path key spelling ∨
        request = .claim path key spelling ∧
          (start.after requests).answer request = .granted := by
  constructor
  · rintro ⟨earlier, later, same, granted⟩
    rcases later.eq_nil_or_concat with rfl | ⟨later, last, rfl⟩
    · rcases List.append_inj' same rfl with ⟨rfl, single⟩
      cases single
      exact Or.inr ⟨rfl, granted⟩
    · rw [List.concat_eq_append, ← List.cons_append, ← List.append_assoc] at same
      exact Or.inl ⟨earlier, later, (List.append_inj' same rfl).1, granted⟩
  · rintro (⟨earlier, later, rfl, granted⟩ | ⟨rfl, granted⟩)
    · refine ⟨earlier, later ++ [request], ?_, granted⟩
      rw [List.append_assoc, List.cons_append]
    · exact ⟨requests, [], rfl, granted⟩

/-! ## Claims -/

section

variable {allocator : Allocator} {path : LeaderPath} {key : Key} {spelling : String}

theorem claimsAt_putClaims (claims : Claims) (other : LeaderPath) :
    (allocator.putClaims path claims).claimsAt other =
      if other = path then claims else allocator.claimsAt other := by
  rw [putClaims, claimsAt, List.lookup_cons]
  by_cases same : other = path
  · rw [if_pos same, same, beq_self_eq_true]
    rfl
  · rw [if_neg same, beq_false_of_ne same]
    rfl

theorem answer_claim :
    allocator.answer (.claim path key spelling) =
      match (allocator.claimsAt path).lookup key with
      | some first => .refused (.duplicateKey spelling first path)
      | none => .granted := by
  rw [answer, claim, Claims.add]
  cases (allocator.claimsAt path).lookup key <;> rfl

theorem next_claim :
    allocator.next (.claim path key spelling) =
      allocator.putClaims path
        (((allocator.claimsAt path).add key spelling).toOption.getD
          (allocator.claimsAt path)) := by
  rw [next, claim]
  cases (allocator.claimsAt path).add key spelling <;> rfl

theorem claimsAt_allocate (path other : LeaderPath) :
    (allocator.allocate path).2.claimsAt other = allocator.claimsAt other := by
  rw [allocate]
  split <;> rfl

/-- A claim is refused exactly where there is one on its key already. -/
theorem answer_claim_eq_refused_iff {error : CompileError} :
    allocator.answer (.claim path key spelling) = .refused error ↔
      ∃ first, (allocator.claimsAt path).lookup key = some first ∧
        error = .duplicateKey spelling first path := by
  rw [answer_claim]
  cases (allocator.claimsAt path).lookup key with
  | none => simp
  | some first => simp [eq_comm]

/-- A claim that succeeds is found besides those from before. -/
theorem lookup_of_add {claims added : Claims} {other : Key} {first : String}
    (done : claims.add key spelling = .ok added) :
    added.lookup other = some first ↔
      claims.lookup other = some first ∨ key = other ∧ spelling = first := by
  rcases Claims.add_eq_ok_iff.1 done with ⟨free, rfl⟩
  rw [List.lookup_append, List.lookup_cons, List.lookup_nil]
  by_cases same : other = key
  · subst same
    simp [free]
  · simp [beq_false_of_ne same, Ne.symm same]

/-- A request adds the claim that it is, if that is granted, and no other one. -/
theorem lookup_claimsAt_next (request : Request) {first : String} :
    ((allocator.next request).claimsAt path).lookup key = some first ↔
      (allocator.claimsAt path).lookup key = some first ∨
        request = .claim path key first ∧ allocator.answer request = .granted := by
  cases request with
  | allocate other => simp [next, claimsAt_allocate]
  | claim other claimedKey spelling =>
      rw [next_claim, claimsAt_putClaims]
      by_cases same : path = other
      · subst same
        rw [if_pos rfl]
        cases added : (allocator.claimsAt path).add claimedKey spelling with
        | error earlier =>
            have taken := Claims.add_eq_error_iff.1 added
            simp [answer_claim, taken, Except.toOption]
        | ok claims =>
            have free := (Claims.add_eq_ok_iff.1 added).1
            simp [answer_claim, free, Except.toOption, lookup_of_add added]
      · simp [same, Ne.symm same]

end

/-- The claims in the tables are those that were granted. -/
theorem lookup_claimsAt_after {start : Allocator} (bare : start.claimed = [])
    (requests : List Request) (path : LeaderPath) (key : Key) (first : String) :
    ((start.after requests).claimsAt path).lookup key = some first ↔
      start.Granted requests path key first := by
  induction requests using List.reverseRecOn with
  | nil =>
      constructor
      · intro found
        rw [after, List.foldl_nil, claimsAt, bare] at found
        cases found
      · rintro ⟨earlier, later, same, -⟩
        cases earlier <;> cases same
  | append_singleton requests request ih =>
      rw [after_concat, lookup_claimsAt_next, granted_concat, ih]

/-! ## Variables -/

/-- Whether the variables of an allocator are those of some paths, in order. -/
structure Holds (allocator : Allocator) (base : String) (paths : List LeaderPath) : Prop where
  named : allocator.base = base
  listed : allocator.allocated = paths.map fun path => (path, path.state base)

section

variable {allocator : Allocator} {base : String} {paths : List LeaderPath}

/-- A path gets its own variable, and a place at the end if it had none. -/
theorem Holds.allocate (holds : allocator.Holds base paths) (path : LeaderPath) :
    (allocator.allocate path).1 = path.state base ∧
      (allocator.allocate path).2.Holds base
        (if path ∈ paths then paths else paths ++ [path]) := by
  have found : allocator.allocated.lookup path =
      if path ∈ paths then some (path.state base) else none := by
    rw [holds.listed]
    exact lookup_holding base paths path
  rw [Allocator.allocate, found]
  by_cases known : path ∈ paths
  · rw [if_pos known, if_pos known]
    exact ⟨rfl, holds⟩
  · rw [if_neg known, if_neg known]
    refine ⟨by rw [holds.named], holds.named, ?_⟩
    rw [holds.named, holds.listed, List.map_append, List.map_singleton]

/-- There is a variable for each path that was allocated, in the order in which they were. -/
theorem Holds.after (holds : allocator.Holds base []) (requests : List Request) :
    (allocator.after requests).Holds base
      (requests.filterMap Request.allocated?).eraseDups := by
  induction requests using List.reverseRecOn with
  | nil => exact holds
  | append_singleton requests request ih =>
      rw [after_concat, List.filterMap_append]
      cases request with
      | claim path key spelling =>
          rw [next_claim, List.filterMap_cons_none rfl, List.filterMap_nil, List.append_nil]
          exact ⟨ih.named, ih.listed⟩
      | allocate path =>
          show ((allocator.after requests).allocate path).2.Holds base (_ ++ [path]).eraseDups
          rw [eraseDups_concat]
          exact (ih.allocate path).2

end

/-! ## Refused claims -/

/-- Whether two allocators cannot be told apart by what they answer. -/
structure Alike (left right : Allocator) : Prop where
  base : left.base = right.base
  allocated : left.allocated = right.allocated
  claimsAt : ∀ path, left.claimsAt path = right.claimsAt path

namespace Alike

variable {left right : Allocator}

theorem answer (alike : Alike left right) (request : Request) :
    left.answer request = right.answer request := by
  cases request with
  | claim path key spelling => rw [answer_claim, answer_claim, alike.claimsAt]
  | allocate path =>
      rw [Allocator.answer, Allocator.answer, allocate, allocate, alike.base, alike.allocated]
      split <;> rfl

theorem next (alike : Alike left right) (request : Request) :
    Alike (left.next request) (right.next request) := by
  cases request with
  | claim path key spelling =>
      rw [next_claim, next_claim, alike.claimsAt]
      refine ⟨alike.base, alike.allocated, ?_⟩
      intro other
      rw [claimsAt_putClaims, claimsAt_putClaims, alike.claimsAt]
  | allocate path =>
      refine ⟨?_, ?_, ?_⟩
      · rw [Allocator.next, Allocator.next, allocate, allocate, alike.allocated]
        split <;> exact alike.base
      · rw [Allocator.next, Allocator.next, allocate, allocate, alike.allocated, alike.base]
        split
        · exact alike.allocated
        · rfl
      · intro other
        rw [Allocator.next, Allocator.next, claimsAt_allocate, claimsAt_allocate,
          alike.claimsAt]

theorem answers (alike : Alike left right) (requests : List Request) :
    left.answers requests = right.answers requests := by
  induction requests generalizing left right with
  | nil => rfl
  | cons request rest ih =>
      rw [Allocator.answers, Allocator.answers, alike.answer, ih (alike.next request)]

theorem after (alike : Alike left right) (requests : List Request) :
    Alike (left.after requests) (right.after requests) := by
  induction requests generalizing left right with
  | nil => exact alike
  | cons request rest ih => exact ih (alike.next request)

end Alike

/-- A refused claim leaves nothing behind that shows. -/
theorem alike_of_refused {allocator : Allocator} {request : Request} {error : CompileError}
    (refused : allocator.answer request = .refused error) :
    Alike (allocator.next request) allocator := by
  cases request with
  | allocate path => cases refused
  | claim path key spelling =>
      rcases answer_claim_eq_refused_iff.1 refused with ⟨first, taken, -⟩
      rw [next_claim, Claims.add_eq_error_iff.2 taken]
      refine ⟨rfl, rfl, ?_⟩
      intro other
      rw [claimsAt_putClaims]
      split
      · next same => rw [same]; rfl
      · rfl

/-! ## Runs -/

/-- What an allocator has come to after some requests, and what it answers next. -/
structure Runs (base : String) (start : Allocator) (requests : List Request) : Prop where
  /-- Each path that was allocated is listed, in the order of the first allocations. -/
  listed : (start.after requests).allocated =
    (requests.filterMap Request.allocated?).eraseDups.map fun path => (path, path.state base)
  distinctPaths : ((start.after requests).allocated.map Prod.fst).Nodup
  distinctNames : ((start.after requests).allocated.map (·.2.name)).Nodup
  /-- A path has the same variable whenever it is asked for. -/
  given : ∀ path, (start.after requests).answer (.allocate path) = .given (path.state base)
  kept : ∀ later,
    (start.after requests).allocated <+: (start.after (requests ++ later)).allocated
  /-- A claim is refused for an earlier one that was granted, in the spelling of that one. -/
  refused_iff : ∀ path key spelling error,
    (start.after requests).answer (.claim path key spelling) = .refused error ↔
      ∃ first, start.Granted requests path key first ∧
        error = .duplicateKey spelling first path
  /-- A refused claim could as well not have been made. -/
  harmless : ∀ request error, (start.after requests).answer request = .refused error →
    ∀ later,
      (start.after (requests ++ [request])).answers later =
          (start.after requests).answers later ∧
        (start.after (requests ++ request :: later)).allocated =
          (start.after (requests ++ later)).allocated

/--
An allocator whose base is accepted lists each path once that was allocated, with its
own variable.  Whatever is asked for in between, a path keeps its variable, and a key
is refused exactly after it was granted under the same path.
-/
theorem runs_of_new {base : String} {start : Allocator}
    (accepted : Allocator.new base = .ok start) (requests : List Request) :
    Runs base start requests := by
  obtain ⟨-, -, rfl⟩ := map_eq_ok_iff.1 accepted
  have holds : ∀ requests, (Allocator.after { base } requests).Holds base
      (requests.filterMap Request.allocated?).eraseDups :=
    Holds.after ⟨rfl, rfl⟩
  have distinct := nodup_eraseDups (requests.filterMap Request.allocated?)
  refine ⟨(holds requests).listed, ?distinctPaths, ?distinctNames, ?given, ?kept, ?refused_iff,
    ?harmless⟩
  case distinctPaths =>
    rw [(holds requests).listed, List.map_map]
    exact (List.map_id _).symm ▸ distinct
  case distinctNames =>
    rw [(holds requests).listed, List.map_map]
    exact distinct.map fun _ _ => LeaderPath.state_name_injective base
  case given =>
    intro path
    rw [answer, ((holds requests).allocate path).1]
  case kept =>
    intro later
    rw [(holds requests).listed, (holds (requests ++ later)).listed, List.filterMap_append,
      List.eraseDups_append, List.map_append]
    exact List.prefix_append _ _
  case refused_iff =>
    intro path key spelling error
    have bare : (Allocator.mk base [] []).claimed = [] := rfl
    simp only [answer_claim_eq_refused_iff, lookup_claimsAt_after bare]
  case harmless =>
    intro request error refused later
    have alike := alike_of_refused refused
    rw [after_concat, after_append, after_append]
    exact ⟨alike.answers later, (alike.after later).allocated⟩

end Allocator

namespace Sample

open Allocator

/-- Two claims on one key, and two allocations of one path. -/
def requests : List Request :=
  [.claim .root lock "l", .allocate (LeaderPath.root.child outer), .claim .root lock "L",
    .allocate (LeaderPath.root.child outer)]

/-- A third claim is refused for the first one, which was granted; the path is listed once. -/
theorem requests_runs :
    Allocator.new "layer" = .ok { base := "layer" } ∧
      (Allocator.after { base := "layer" } requests).answer (.claim .root lock " l ") =
        .refused (.duplicateKey " l " "l" .root) ∧
      (Allocator.after { base := "layer" } requests).allocated =
        [(LeaderPath.root.child outer, ⟨"layer_a"⟩)] := by
  have valid : checkVariableName "layer" = .ok () := by decide +kernel
  have accepted : Allocator.new "layer" = .ok { base := "layer" } := by
    rw [Allocator.new, valid]
    rfl
  have runs := runs_of_new accepted requests
  refine ⟨accepted, (runs.refused_iff ..).2 ⟨"l", ⟨[], _, rfl, rfl⟩, rfl⟩, ?_⟩
  rw [runs.listed]
  decide +kernel

end Sample

end KeyLayers
