import VoxelSwarm.Matrix.Basic

/-!
# The model format

A model file is one byte for the side of the grid, then its packed voxels. The bits past the last
voxel are padding: `parse` clears them, while `ofParts`, which takes a matrix apart from its count,
refuses a set one. The side is at most `maxResolution` in both.
-/

namespace VoxelSwarm

/-- Why bytes are not a matrix. -/
inductive ModelError where
  | empty
  | resolutionTooLarge (resolution : Nat)
  | lengthMismatch (expected actual : Nat)
  | paddingBitsSet
  | countMismatch (recorded counted : Nat)
  deriving DecidableEq, Repr

def ModelError.message : ModelError → String
  | .empty => "model is empty"
  | .resolutionTooLarge resolution =>
    "model resolution " ++ toString resolution ++ " exceeds the supported maximum"
  | .lengthMismatch expected actual =>
    "model payload holds " ++ toString actual ++ " bytes, expected " ++ toString expected
  | .paddingBitsSet => "padding bits past the last voxel are set"
  | .countMismatch recorded counted =>
    "matrix records " ++ toString recorded ++ " full voxels but holds " ++ toString counted

namespace Matrix

/-- The greatest side that the format admits. -/
def maxResolution : Nat := 250

/-- The number of voxels in the last byte, zero when they fill it. -/
def tailBits (r : Nat) : Nat := volume r % 8

/-- The voxels of the last byte alone. -/
def clearTail (r : Nat) (byte : UInt8) : UInt8 := byte &&& (mask (tailBits r) - 1)

/-- The packed voxels with every padding bit cleared. -/
def clearPadding (r : Nat) (data : Array UInt8) : Array UInt8 :=
  if tailBits r = 0 then data else data.modify (data.size - 1) (clearTail r)

/-- Some padding bit is set. -/
def paddingSet (r : Nat) (data : Array UInt8) : Bool :=
  tailBits r != 0 && data.back?.any fun byte => clearTail r byte != byte

/-- Accepts a side within the limit and exactly as many bytes as its voxels take. -/
def checkSize (r : Nat) (data : Array UInt8) : Except ModelError Unit :=
  if maxResolution < r then .error (.resolutionTooLarge r)
  else if data.size ≠ byteCount r then .error (.lengthMismatch (byteCount r) data.size)
  else .ok ()

def parse : List UInt8 → Except ModelError Matrix
  | [] => .error .empty
  | side :: payload => do
    let r := side.toNat
    let packed := payload.toArray
    checkSize r packed
    let data := clearPadding r packed
    return ⟨r, bitTotal data, data⟩

def toBytes (m : Matrix) : List UInt8 := m.resolution.toUInt8 :: m.data.toList

/-- Puts a matrix together from its three fields, which have to agree. -/
def ofParts (resolution fullCount : Nat) (data : Array UInt8) : Except ModelError Matrix := do
  checkSize resolution data
  if paddingSet resolution data then .error .paddingBitsSet
  else if bitTotal data ≠ fullCount then .error (.countMismatch fullCount (bitTotal data))
  else .ok ⟨resolution, fullCount, data⟩

end Matrix

end VoxelSwarm
