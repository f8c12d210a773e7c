import KeyLayers.Layer.Error

/-!
# Allocation of keys and variables

Under each path a key can be claimed once, whatever its spelling.  An allocator
keeps the claims of all paths and the variables in the order in which they were
first asked for; as the name of a variable depends on its path alone, asking
again gives the same variable.
-/

namespace KeyLayers

/-- The keys claimed under one path, each in the spelling of its claim. -/
abbrev Claims := List (Key × String)

/-- Claims one more key; if it is taken, the spelling of the earlier claim. -/
def Claims.add (claims : Claims) (key : Key) (spelling : String) : Except String Claims :=
  match claims.lookup key with
  | some first => .error first
  | none => .ok (claims ++ [(key, spelling)])

/-- The claims and variables handed out so far. -/
structure Allocator where
  /-- What the names of variables begin with. -/
  base : String
  claimed : List (LeaderPath × Claims) := []
  /-- The variables in the order of their first allocation. -/
  allocated : List (LeaderPath × StateVariable) := []

namespace Allocator

/-- An allocator without claims; its variables begin with a valid name. -/
def new (base : String) : Except Defect Allocator :=
  (checkVariableName base).map fun _ => { base }

/-- The claims under a path. -/
def claimsAt (allocator : Allocator) (path : LeaderPath) : Claims :=
  (allocator.claimed.lookup path).getD []

/-- Claims a key under a path. -/
def claim (allocator : Allocator) (path : LeaderPath) (key : Key) (spelling : String) :
    Except CompileError Allocator :=
  match (allocator.claimsAt path).add key spelling with
  | .error first => .error (.duplicateKey spelling first path)
  | .ok claims => .ok { allocator with claimed := (path, claims) :: allocator.claimed }

/-- The variable of a path, and the allocator that has it. -/
def allocate (allocator : Allocator) (path : LeaderPath) : StateVariable × Allocator :=
  match allocator.allocated.lookup path with
  | some state => (state, allocator)
  | none =>
      let state := path.state allocator.base
      (state, { allocator with allocated := allocator.allocated ++ [(path, state)] })

end Allocator

end KeyLayers
