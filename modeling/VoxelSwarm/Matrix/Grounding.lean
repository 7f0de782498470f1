import VoxelSwarm.Matrix.Basic

/-!
# Connectivity and grounding

Two full voxels that share a face hold on to each other, and a full voxel is grounded when a chain
of such pairs leads from it to a full voxel of the ground plane `y = 0`.

Both are read off one walk, `Matrix.sweep`: breadth first from each of a list of seeds in turn, it
lists the full voxels that it comes to and the seeds at which it had to start afresh. From the
ground plane it lists the grounded voxels (`grounded`); from every voxel its fresh starts are the
connected components (`componentCount`).
-/

namespace VoxelSwarm

/-- The progress of a walk: the voxels it has come to, in order of discovery and as a set, and the
seeds at which it started afresh. -/
structure Flood where
  reached : Array Position
  seen : Matrix
  starts : Array Position

namespace Flood

/-- The walk that has not left yet, in a grid of side `r`. -/
def start (r : Nat) : Flood := ⟨#[], Matrix.empty r, #[]⟩

def reach (walk : Flood) (p : Position) : Flood :=
  { walk with reached := walk.reached.push p, seen := walk.seen.set p true }

/-- Comes to every full neighbor of `p` that the walk has not seen. -/
def expand (m : Matrix) (walk : Flood) (p : Position) : Flood :=
  (p.neighbors m.resolution).foldl
    (fun walk q => if m.get q && !walk.seen.get q then walk.reach q else walk) walk

/-- Expands the voxels from number `head` on, in order of discovery, until none is left. Every
voxel is discovered at most once, so the volume of the grid is `fuel` enough. -/
def drain (m : Matrix) : (fuel head : Nat) → Flood → Flood
  | 0, _, walk => walk
  | fuel + 1, head, walk =>
    match walk.reached[head]? with
    | none => walk
    | some p => drain m fuel (head + 1) (walk.expand m p)

/-- Starts at a full voxel that the walk has not seen, and goes as far as it can. -/
def startAt (m : Matrix) (walk : Flood) (seed : Position) : Flood :=
  if m.get seed && !walk.seen.get seed then
    let head := walk.reached.size
    drain m (Matrix.volume m.resolution) head
      { walk.reach seed with starts := walk.starts.push seed }
  else walk

end Flood

namespace Matrix

/-- The walk from each seed in turn. -/
def sweep (m : Matrix) (seeds : List Position) : Flood :=
  seeds.foldl (Flood.startAt m) (Flood.start m.resolution)

/-- The voxels of the ground plane, row by row. -/
def groundPlane (r : Nat) : List Position :=
  Region.grid (Region.interval 0 (r - 1)) [0] (Region.interval 0 (r - 1))

def allVoxels (r : Nat) : List Position := (List.range (volume r)).map (Position.unpack r)

/-- The grounded voxels, breadth first from the ground plane. -/
def grounded (m : Matrix) : Array Position :=
  if m.fullCount = 0 then #[] else (m.sweep (groundPlane m.resolution)).reached

def groundedCount (m : Matrix) : Nat := m.grounded.size

def isGrounded (m : Matrix) : Bool := m.fullCount == 0 || m.groundedCount == m.fullCount

/-- The number of full voxels that float. -/
def floatingCount (m : Matrix) : Nat := m.fullCount - m.groundedCount

/-- The number of sets that the full voxels fall into when neighbors are kept together. -/
def componentCount (m : Matrix) : Nat := (m.sweep (allVoxels m.resolution)).starts.size

end Matrix

end VoxelSwarm
