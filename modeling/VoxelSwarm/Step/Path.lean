import VoxelSwarm.Geometry.Position

/-!
# Paths

The voxels that a move sweeps: one straight line for each displacement, both ends included. The
second line of a bent move starts where the first one ends, and that voxel is listed once.
-/

namespace VoxelSwarm

/-- The voxels from `start` to `start + d`, both included. -/
def straightPath (start : Position) (d : Displacement) : List Position :=
  (List.range (d.mlen + 1)).map fun (i : Nat) => start + d.sign.scale i

theorem mem_straightPath {start p : Position} {d : Displacement} :
    p ∈ straightPath start d ↔ ∃ k ≤ d.mlen, p = start + d.sign.scale k := by
  simp only [straightPath, List.mem_map, List.mem_range]
  grind

/-- The voxels of a straight path to `start + d` and of a second one by `e` from there. -/
def bentPath (start : Position) (d e : Displacement) : List Position :=
  straightPath start d ++ (straightPath (start + d) e).drop 1

end VoxelSwarm
