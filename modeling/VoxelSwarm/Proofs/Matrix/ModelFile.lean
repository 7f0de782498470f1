import Mathlib.Algebra.Order.Floor.Div
import Mathlib.GroupTheory.GroupAction.Ring
import Mathlib.Tactic.Ring
import VoxelSwarm.Proofs.Matrix.Floating
import VoxelSwarm.Proofs.Matrix.Format

/-!
# Model files and the voxels they stand for

`Exact` tells the fields of a matrix by its voxels, and a matrix is exact just when it is consistent
(`consistent_iff_exact`). A model file is accepted by its first byte and its length alone, its bits
are the voxels, and writing what was read clears the padding and nothing else. An exact matrix
within the limit comes back from the file that it is written to (`parse_exact`).
-/

namespace VoxelSwarm.Matrix

variable {m : Matrix} {side : UInt8} {payload : List UInt8}

/-! ## Exact fields -/

/-- The voxels take up all bytes, eight to a byte, no bit past the last voxel is set, and the count
is that of the positions of the grid that are read as full. -/
structure Exact (m : Matrix) : Prop where
  size : m.data.size = m.resolution ^ 3 ⌈/⌉ 8
  padding : ∀ i, m.resolution ^ 3 ≤ i → m.bit i = false
  count : m.fullCount = {p | m.Holds p ∧ m.get p = true}.ncard

theorem volume_eq (r : Nat) : volume r = r ^ 3 := by
  rw [volume]
  ring

theorem byteCount_eq (r : Nat) : byteCount r = r ^ 3 ⌈/⌉ 8 := by
  rw [Nat.ceilDiv_eq_add_pred_div, byteCount, volume_eq]
  rfl

theorem consistent_iff_exact : m.Consistent ↔ m.Exact := by
  have hfull : {p | m.Holds p ∧ m.get p = true} = {p | m.Full p} := by
    ext p
    exact ⟨fun h => h.2, fun h => ⟨h.holds, h⟩⟩
  have hcount : {p | m.Holds p ∧ m.get p = true}.ncard =
      (List.range (volume m.resolution)).countP m.bit := by
    rw [hfull]
    exact (ncard_full_eq_countP m).2
  constructor
  · intro h
    exact ⟨byteCount_eq _ ▸ h.size, volume_eq _ ▸ h.padding, h.count.trans hcount.symm⟩
  · intro h
    exact ⟨byteCount_eq _ ▸ h.size, volume_eq _ ▸ h.padding, h.count.trans hcount⟩

/-! ## Bits of a payload -/

/-- Bit `i % 8` of byte `i / 8`. Past the last byte no bit is set. -/
def packedBit (bytes : List UInt8) (i : Nat) : Bool :=
  bytes[i / 8]?.any fun byte => byte.toNat.testBit (i % 8)

theorem bit_eq_packedBit (m : Matrix) (i : Nat) : m.bit i = packedBit m.data.toList i := by
  rw [bit, packedBit, Array.getD_eq_getD_getElem?, Array.getElem?_toList]
  cases m.data[i / 8]? with
  | none => exact Nat.zero_testBit _
  | some byte => rfl

/-- Of a model file just the bits that belong to voxels are kept. -/
theorem bit_of_parse (h : parse (side :: payload) = .ok m) :
    m.resolution = side.toNat ∧
      ∀ i, m.bit i = (packedBit payload i && decide (i < side.toNat ^ 3)) := by
  obtain ⟨⟨-, hlength⟩, rfl⟩ := parse_cons_eq_ok_iff.1 h
  have hsize : payload.toArray.size = byteCount side.toNat := hlength
  refine ⟨rfl, fun i => ?_⟩
  rw [bit_clearPadding hsize, bit_eq_packedBit, volume_eq]

theorem exists_parse_iff {bytes : List UInt8} :
    (∃ m, parse bytes = .ok m) ↔ ∃ side payload, bytes = side :: payload ∧
      side.toNat ≤ maxResolution ∧ payload.length = side.toNat ^ 3 ⌈/⌉ 8 := by
  cases bytes with
  | nil =>
    constructor
    · rintro ⟨m, h⟩
      cases h
    · rintro ⟨side, payload, h, -⟩
      cases h
  | cons side payload =>
    simp only [parse_cons_eq_ok_iff, exists_and_left, exists_eq, and_true, byteCount_eq]
    constructor
    · exact fun h => ⟨side, payload, rfl, h⟩
    · rintro ⟨_, _, heq, h⟩
      obtain ⟨rfl, rfl⟩ := List.cons.inj heq
      exact h

/-! ## Voxels of a payload -/

theorem holds_mk {x y z : Nat} (hx : x < m.resolution) (hy : y < m.resolution)
    (hz : z < m.resolution) : m.Holds ⟨x, y, z⟩ := by
  simp only [Holds, Position.Inside]
  omega

theorem pack_mk (r x y z : Nat) : (⟨x, y, z⟩ : Position).pack r = x * r * r + y * r + z := by
  simp only [Position.pack, Int.toNat_natCast, Nat.add_mul]

theorem get_of_parse (h : parse (side :: payload) = .ok m) {x y z : Nat} (hx : x < m.resolution)
    (hy : y < m.resolution) (hz : z < m.resolution) :
    m.get ⟨x, y, z⟩ =
      packedBit payload (x * m.resolution * m.resolution + y * m.resolution + z) := by
  obtain ⟨hresolution, hbit⟩ := bit_of_parse h
  have hin := holds_mk hx hy hz
  have hlt := pack_lt_volume hin
  rw [volume_eq] at hlt
  rw [get_eq_bit hin, hbit, ← hresolution, decide_eq_true hlt, Bool.and_true, pack_mk]

/-! ## Writing what was read -/

theorem toBytes_of_parse (h : parse (side :: payload) = .ok m) :
    ∃ kept, m.toBytes = side :: kept ∧ kept.length = payload.length ∧
      ∀ i, packedBit kept i = (packedBit payload i && decide (i < side.toNat ^ 3)) := by
  obtain ⟨hresolution, hbit⟩ := bit_of_parse h
  refine ⟨m.data.toList, ?_, ?_, fun i => by rw [← bit_eq_packedBit, hbit]⟩
  · rw [toBytes, hresolution]
    exact congrArg (· :: m.data.toList) UInt8.ofNat_toNat
  · obtain ⟨⟨-, hlength⟩, -⟩ := parse_cons_eq_ok_iff.1 h
    rw [Array.length_toList, (consistent_of_parse h).size, hresolution, hlength]

theorem Consistent.parse_toBytes (h : m.Consistent) (hr : m.resolution ≤ maxResolution) :
    parse m.toBytes = .ok m := by
  have hside : m.resolution.toUInt8.toNat = m.resolution :=
    UInt8.toNat_ofNat_of_lt (Nat.lt_of_le_of_lt hr (by decide))
  obtain ⟨found, hfound⟩ : ∃ found, parse m.toBytes = .ok found :=
    exists_parse_iff.2 ⟨_, _, rfl, hside.symm ▸ hr, by
      rw [hside, Array.length_toList, h.size, byteCount_eq]⟩
  obtain ⟨hresolution, hbit⟩ := bit_of_parse hfound
  rw [hside] at hresolution hbit
  -- the padding of the matrix is clear already
  have hsame : ∀ i, found.bit i = m.bit i := fun i => by
    rw [hbit, ← bit_eq_packedBit]
    by_cases hi : i < m.resolution ^ 3
    · rw [decide_eq_true hi, Bool.and_true]
    · rw [decide_eq_false hi, Bool.and_false,
        h.padding i (by rw [volume_eq]; exact Nat.le_of_not_lt hi)]
  rw [hfound, (consistent_of_parse hfound).ext_of_bit h hresolution hsame]

/-! ## The format -/

/-- A model file is accepted just when it has a first byte, this is at most 250, and as many bytes
follow as the cube of it takes. Then the voxel of three coordinates is full just when the bit with
its number is set, and the matrix is written to the same bytes with the bits past the last voxel
cleared. An exact matrix of a side that is at most 250 is read from what it is written to. -/
theorem parse_exact :
    (∀ bytes, (∃ m, parse bytes = .ok m) ↔ ∃ side payload, bytes = side :: payload ∧
      side.toNat ≤ 250 ∧ payload.length = side.toNat ^ 3 ⌈/⌉ 8) ∧
    (∀ side payload m, parse (side :: payload) = .ok m →
      m.resolution = side.toNat ∧
      (∀ x y z : Nat, x < side.toNat → y < side.toNat → z < side.toNat →
        (m.get ⟨x, y, z⟩ = true ↔
          packedBit payload (x * side.toNat * side.toNat + y * side.toNat + z) = true)) ∧
      ∃ kept, m.toBytes = side :: kept ∧ kept.length = payload.length ∧
        ∀ i, packedBit kept i = (packedBit payload i && decide (i < side.toNat ^ 3))) ∧
    ∀ m : Matrix, m.resolution ≤ 250 → m.Exact → parse m.toBytes = .ok m := by
  refine ⟨fun bytes => exists_parse_iff, fun side payload m h => ?_, fun m hr hexact => ?_⟩
  · obtain ⟨hresolution, -⟩ := bit_of_parse h
    refine ⟨hresolution, fun x y z hx hy hz => ?_, toBytes_of_parse h⟩
    rw [← hresolution] at hx hy hz ⊢
    rw [get_of_parse h hx hy hz]
  · exact (consistent_iff_exact.2 hexact).parse_toBytes hr

def corners : Matrix := ⟨3, 2, #[1, 0, 0, 4]⟩

/-- The five bits past the last voxel are dropped when they are set. With one byte less there is
nothing to read. -/
theorem parse_exact_corners : parse [3, 1, 0, 0, 252] = .ok corners ∧
    corners.get ⟨2, 2, 2⟩ = true ∧ corners.get ⟨1, 1, 1⟩ = false ∧
    (∃ kept, corners.toBytes = 3 :: kept ∧ ∀ i, 27 ≤ i → packedBit kept i = false) ∧
    parse corners.toBytes = .ok corners ∧ ¬∃ m, parse [3, 1, 0, 0] = .ok m := by
  have hread : parse [3, 1, 0, 0, 252] = .ok corners := by decide +kernel
  have hvolume : UInt8.toNat 3 ^ 3 = 27 := rfl
  obtain ⟨haccepts, hreads, hwrites⟩ := parse_exact
  obtain ⟨-, hvoxels, kept, hkept, -, hbits⟩ := hreads 3 [1, 0, 0, 252] corners hread
  have hcorner := hvoxels 2 2 2 (by decide) (by decide) (by decide)
  have hmiddle := hvoxels 1 1 1 (by decide) (by decide) (by decide)
  refine ⟨hread, hcorner.2 (by decide), ?_, ⟨kept, hkept, fun i hi => ?_⟩, ?_, ?_⟩
  · exact Bool.eq_false_iff.2 fun h => absurd (hmiddle.1 h) (by decide)
  · rw [hbits, hvolume, decide_eq_false (Nat.not_lt.2 hi), Bool.and_false]
  · exact hwrites corners (by decide) (consistent_iff_exact.1 (consistent_of_parse hread))
  · rw [haccepts]
    rintro ⟨side, payload, heq, -, hlength⟩
    obtain ⟨rfl, rfl⟩ := List.cons.inj heq
    exact absurd hlength (by decide)

end VoxelSwarm.Matrix
