import VoxelSwarm.Navigation.Moves

/-!
# Shortest routes

A breadth-first search over the moves of one bot. A `Navigator` is its workspace: a table with an
entry for every voxel of the grid, which holds the number of the voxel it was found from. The start
holds its own number, and the route to a voxel is read off by going back along the entries until
they stay the same. A navigator is used for one search after another, and cleared for each.

A voxel is put to the test when it is found, and the search stops at the first one that passes. The
test may have effects of its own, such as a count of what it was asked.
-/

namespace VoxelSwarm

/-- The voxel a search has come to, and the commands that lead there. -/
structure Route where
  destination : Position
  commands : List Command
  deriving DecidableEq

/-- The workspace of searches: the side of the grid it was used for last, and for every voxel of
that grid the number of the voxel that it was found from. -/
structure Navigator where
  resolution : Nat := 0
  predecessors : Array UInt32 := #[]
  deriving DecidableEq

namespace Navigator

/-- The entry of a voxel that has not been found. -/
def unvisited : UInt32 := 0xFFFFFFFF

/-- The navigator without any voxel found, for a grid of side `r`. -/
def prepare (n : Navigator) (r : Nat) : Navigator :=
  if n.resolution ≠ r ∨ n.predecessors.size ≠ Matrix.volume r then
    ⟨r, Array.replicate (Matrix.volume r) unvisited⟩
  else { n with predecessors := n.predecessors.map fun _ => unvisited }

def entry (n : Navigator) (index : Nat) : UInt32 := n.predecessors.getD index unvisited

def visited (n : Navigator) (p : Position) : Bool := n.entry (p.pack n.resolution) != unvisited

def visit (n : Navigator) (source p : Position) : Navigator :=
  { n with
    predecessors := n.predecessors.setIfInBounds (p.pack n.resolution)
      (source.pack n.resolution).toUInt32 }

/-- Goes back along the entries from the voxel with number `index` until it comes to number `first`,
and puts the voxels that it comes to in front of the list. Every voxel is passed at most once, so
the size of the table is `fuel` enough. -/
def traceBack (n : Navigator) (first : Nat) :
    (fuel index : Nat) → List Position → Option (List Position)
  | 0, _, _ => none
  | fuel + 1, index, after =>
    if index = first then some after
    else
      let index := (n.entry index).toNat
      n.traceBack first fuel index (Position.unpack n.resolution index :: after)

/-- The commands that lead along a list of voxels. -/
def commandsAlong (m : Matrix) : List Position → Option (List Command)
  | p :: q :: rest => do
    let c ← m.moveCommand? p q
    let cs ← commandsAlong m (q :: rest)
    return c :: cs
  | _ => some []

/-- The route from the start of a search to a voxel that it has found. -/
def reconstruct (n : Navigator) (m : Matrix) (start goal : Position) : Option Route := do
  let waypoints ← n.traceBack (start.pack n.resolution) n.predecessors.size
    (goal.pack n.resolution) [goal]
  let commands ← commandsAlong m waypoints
  return ⟨goal, commands⟩

end Navigator

/-- The progress of a search: the table, and the voxels to expand in the order in which they were
found. -/
structure Search where
  navigator : Navigator
  found : Array Position

namespace Search

variable {μ : Type → Type} [Monad μ]

/-- The search that has found only its start, which counts as found from itself. -/
def start (n : Navigator) (p : Position) : Search := ⟨n.visit p p, #[p]⟩

/-- Finds the voxels that have not been visited, up to the first one that passes the test. -/
def discover (goal : Position → μ Bool) (source : Position) :
    List Position → Search → μ (Option Position × Search)
  | [], search => return (none, search)
  | p :: rest, search =>
    if search.navigator.visited p then discover goal source rest search
    else do
      let n := search.navigator.visit source p
      if ← goal p then return (some p, { search with navigator := n })
      discover goal source rest ⟨n, search.found.push p⟩

/-- Expands the voxels with number `head` and later, up to the first voxel found that passes the
test. Every voxel is found at most once, so the volume of the grid is `fuel` enough. -/
def run (m : Matrix) (goal : Position → μ Bool) :
    (fuel head : Nat) → Search → μ (Option Position × Search)
  | 0, _, search => return (none, search)
  | fuel + 1, head, search =>
    match search.found[head]? with
    | none => return (none, search)
    | some p => do
      let (hit?, search) ← discover goal p ((m.moveOffsets p).map (p + ·)) search
      if hit?.isSome then return (hit?, search)
      run m goal fuel (head + 1) search

end Search

namespace Position

/-- Positions in ascending order, each one once. -/
def ascending (ps : List Position) : Array Position :=
  (ps.mergeSort fun p q => decide (¬q < p)).eraseReps.toArray

/-- Looks for a position among positions in ascending order, in one half of them after another. -/
def listedIn (p : Position) (ps : Array Position) : Bool :=
  ps.binSearchContains p fun q q' => decide (q < q')

end Position

namespace Navigator

/-- A route with as few commands as possible from a voxel to one that passes a test. -/
def shortestRoute {μ : Type → Type} [Monad μ] (n : Navigator) (m : Matrix) (start : Position)
    (goal : Position → μ Bool) : μ (Option Route × Navigator) := do
  if ¬m.Holds start then return (none, n)
  if ← goal start then return (some ⟨start, []⟩, n)
  let (hit?, search) ← Search.run m goal (Matrix.volume m.resolution) 0
    (Search.start (n.prepare m.resolution) start)
  return (hit?.bind (search.navigator.reconstruct m start), search.navigator)

/-- A route with as few commands as possible from a voxel to one of several targets. Those inside
the grid are put in order first, so that each voxel can be looked up among them. -/
def routeToNearest (n : Navigator) (m : Matrix) (start : Position) (targets : List Position) :
    Option Route × Navigator :=
  let inside := targets.filter fun p => m.Holds p
  if inside.isEmpty then (none, n)
  else
    let ordered := Position.ascending inside
    Id.run (n.shortestRoute m start fun p => return p.listedIn ordered)

end Navigator

end VoxelSwarm
