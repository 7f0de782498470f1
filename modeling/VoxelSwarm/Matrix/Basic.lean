import VoxelSwarm.Geometry.Region

/-!
# Matrices

A `Matrix` is a cubic grid of voxels, each full or void, packed eight to a byte: the voxel with
number `i` is bit `i % 8` of byte `i / 8`. The number of full voxels is kept beside the bytes.

Outside the grid every voxel reads as void and writing one does nothing, so reading and writing are
total; `StrayVoxel` is the report for a caller that must not go there.
-/

namespace VoxelSwarm

/-- A cubic grid of voxels. -/
@[ext]
structure Matrix where
  resolution : Nat
  fullCount : Nat
  data : Array UInt8
  deriving DecidableEq

/-- A voxel outside the grid it was looked up in. -/
structure StrayVoxel where
  position : Position
  resolution : Nat
  deriving DecidableEq, Repr

def StrayVoxel.message (stray : StrayVoxel) : String :=
  "voxel " ++ stray.position.text ++ " outside a matrix of resolution " ++
    toString stray.resolution

namespace Matrix

/-- The number of voxels of a grid of side `r`. -/
def volume (r : Nat) : Nat := r * r * r

/-- The number of bytes that hold the voxels of a grid of side `r`. -/
def byteCount (r : Nat) : Nat := (volume r + 7) / 8

/-- The number of set bits of a byte. -/
def bitCount (byte : UInt8) : Nat := (List.range 8).countP fun k => byte.toNat.testBit k

def bitTotal (data : Array UInt8) : Nat := data.foldl (fun total byte => total + bitCount byte) 0

/-- The byte in which only bit `k` is set. -/
def mask (k : Nat) : UInt8 := 1 <<< k.toUInt8

def empty (r : Nat) : Matrix := ⟨r, 0, Array.replicate (byteCount r) 0⟩

/-- Whether the voxel with a given number is full. -/
def bit (m : Matrix) (index : Nat) : Bool :=
  (m.data.getD (index / 8) 0).toNat.testBit (index % 8)

def Holds (m : Matrix) (p : Position) : Prop := p.Inside m.resolution

instance (m : Matrix) (p : Position) : Decidable (m.Holds p) :=
  inferInstanceAs (Decidable (p.Inside m.resolution))

def get (m : Matrix) (p : Position) : Bool :=
  decide (m.Holds p) && m.bit (p.pack m.resolution)

def setBit (m : Matrix) (index : Nat) (value : Bool) : Matrix :=
  if m.bit index = value then m
  else if value then
    { m with
      fullCount := m.fullCount + 1
      data := m.data.modify (index / 8) fun byte => byte ||| mask (index % 8) }
  else
    { m with
      fullCount := m.fullCount - 1
      data := m.data.modify (index / 8) fun byte => byte &&& ~~~mask (index % 8) }

def set (m : Matrix) (p : Position) (value : Bool) : Matrix :=
  if m.Holds p then m.setBit (p.pack m.resolution) value else m

def setAll (m : Matrix) (ps : List Position) (value : Bool) : Matrix :=
  ps.foldl (fun m p => m.set p value) m

/-- The numbers of the full voxels, in ascending order. -/
def fullIndices (m : Matrix) : List Nat :=
  (volume m.resolution).foldRev (fun i _ found => if m.bit i then i :: found else found) []

/-- The full voxels, in ascending order. -/
def fullVoxels (m : Matrix) : List Position :=
  m.fullIndices.map (Position.unpack m.resolution)

/-- The number of full voxels in the box with corners `a` and `b`, or the first voxel of the box
that is outside the grid. -/
def countInside (m : Matrix) (a b : Position) : Except StrayVoxel Nat :=
  match (Region.spanning a b).firstOutside m.resolution with
  | some p => .error ⟨p, m.resolution⟩
  | none => .ok ((Region.spanning a b).count m.get)

/-- The voxel at a position that has to be inside the grid. -/
def lookup (m : Matrix) (p : Position) : Except StrayVoxel Bool :=
  if m.Holds p then .ok (m.get p) else .error ⟨p, m.resolution⟩

/-- Fills or voids the voxel at a position that has to be inside the grid. -/
def update (m : Matrix) (p : Position) (value : Bool) : Except StrayVoxel Matrix :=
  if m.Holds p then .ok (m.set p value) else .error ⟨p, m.resolution⟩

end Matrix

end VoxelSwarm
