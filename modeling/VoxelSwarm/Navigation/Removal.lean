import VoxelSwarm.Matrix.Grounding

/-!
# Removing a voxel

Whether a full voxel can be voided without leaving other voxels afloat. Often its neighborhood
tells, the cube of 27 voxels around it: if the matter in the cube falls into as many components with
the middle voxel as without it, whatever held together still does. Otherwise the voxel is voided for
as long as it takes to count the grounded voxels without it.
-/

namespace VoxelSwarm

namespace Matrix

def cubeMiddle : Position := ⟨1, 1, 1⟩

/-- The cube around a voxel, as a grid of side 3. What lies below the ground plane counts as full,
for the ground holds whatever rests on it; what is outside the grid elsewhere counts as void. -/
def neighborhood (m : Matrix) (p : Position) : Matrix :=
  (empty 3).setAll
    ((allVoxels 3).filter fun q =>
      let place := p + (q - cubeMiddle)
      decide (place.y < 0) || m.get place) true

/-- Voiding the middle of a neighborhood leaves its number of components alone. -/
def middleRemovable (cube : Matrix) : Bool :=
  !cube.get cubeMiddle || (cube.set cubeMiddle false).componentCount == cube.componentCount

/-- What counting the grounded voxels with and without one of them has shown, and the matrix in
which that voxel has been voided and filled again. -/
structure Recount where
  before : Nat
  after : Nat
  matrix : Matrix

/-- Counts the grounded voxels, voids a voxel, counts again and fills the voxel again. -/
def recount (m : Matrix) (p : Position) : Recount :=
  let cleared := m.set p false
  ⟨m.groundedCount, cleared.groundedCount, cleared.set p true⟩

/-- Whether voiding a voxel of the grid leaves no other voxel afloat, and the matrix afterwards. Of
the grounded voxels only the one that is voided may be missing. -/
def removable (m : Matrix) (p : Position) : Bool × Matrix :=
  if !m.get p || (m.neighborhood p).middleRemovable then (true, m)
  else
    let result := m.recount p
    (decide (result.before - result.after ≤ 1), result.matrix)

/-- Whether voiding a voxel, which has to be inside the grid, leaves no other voxel afloat, and the
matrix afterwards. -/
def safeToChange (m : Matrix) (p : Position) : Except StrayVoxel (Bool × Matrix) :=
  if m.Holds p then .ok (m.removable p) else .error ⟨p, m.resolution⟩

def cells (m : Matrix) : String :=
  String.ofList ((List.range (volume m.resolution)).map fun i => if m.bit i then '1' else '0')

def ofCells (r : Nat) (cells : String) : Matrix :=
  (empty r).setAll
    ((cells.toList.zip (allVoxels r)).filterMap fun (c, p) => if c = '1' then some p else none) true

end Matrix

end VoxelSwarm
