/-!
# Harmonics

The field that holds matter in place. While it is low every full voxel has to be grounded; while it
is high matter may float, at ten times the cost.
-/

namespace VoxelSwarm

/-- The global field. -/
inductive Harmonics where
  | low
  | high
  deriving DecidableEq, Repr, Inhabited

namespace Harmonics

def flipped : Harmonics → Harmonics
  | .low => .high
  | .high => .low

/-- The energy that the field takes for each voxel of the grid in each step. -/
def costPerVoxel : Harmonics → Int
  | .low => 3
  | .high => 30

def name : Harmonics → String
  | .low => "Low"
  | .high => "High"

end Harmonics

end VoxelSwarm
