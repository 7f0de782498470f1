import VoxelSwarm.Matrix.Basic

/-!
# Reading what was written

Writing a bit changes that bit and no other, and so writing a voxel changes that voxel and no other,
in a matrix that has as many bytes as its side asks for (`get_set`). The empty matrix has no full
voxel (`get_empty`).
-/

namespace VoxelSwarm.Matrix

/-! ## Bytes -/

theorem toNat_mask {k : Nat} (h : k < 8) : (mask k).toNat = Nat.pow 2 k := by
  have hall : ∀ k < 8, (mask k).toNat = Nat.pow 2 k := by decide
  exact hall k h

theorem testBit_or_mask {k j : Nat} (byte : UInt8) (h : k < 8) :
    (byte ||| mask k).toNat.testBit j = (byte.toNat.testBit j || decide (k = j)) := by
  rw [UInt8.toNat_or, Nat.testBit_or, toNat_mask h, Nat.pow_eq, Nat.testBit_two_pow]

theorem testBit_and_not_mask {k j : Nat} (byte : UInt8) (h : k < 8) (hj : j < 8) :
    (byte &&& ~~~mask k).toNat.testBit j = (byte.toNat.testBit j && decide (k ≠ j)) := by
  have hlt := Nat.pow_lt_pow_right (a := 2) (by decide) h
  have hnot : UInt8.size - 1 - Nat.pow 2 k = Nat.pow 2 8 - (Nat.pow 2 k + 1) := by
    simp only [UInt8.size, Nat.pow_eq]
    omega
  rw [UInt8.toNat_and, UInt8.toNat_not, toNat_mask h, Nat.testBit_and, hnot, Nat.pow_eq, Nat.pow_eq,
    Nat.testBit_two_pow_sub_succ hlt, Nat.testBit_two_pow]
  simp [hj]

/-! ## Bits -/

theorem bit_modify (m : Matrix) (f : UInt8 → UInt8) (n : Nat) {i : Nat}
    (h : i / 8 < m.data.size) (j : Nat) :
    bit ⟨m.resolution, n, m.data.modify (i / 8) f⟩ j =
      if i / 8 = j / 8 then (f (m.data.getD (j / 8) 0)).toNat.testBit (j % 8) else m.bit j := by
  simp only [bit, Array.getD_eq_getD_getElem?, Array.getElem?_modify]
  split
  · next hij => simp [hij ▸ h]
  · rfl

theorem bit_setBit (m : Matrix) {i : Nat} (h : i / 8 < m.data.size) (value : Bool) (j : Nat) :
    (m.setBit i value).bit j = if i = j then value else m.bit j := by
  have hi : i % 8 < 8 := Nat.mod_lt _ (by decide)
  have hj : j % 8 < 8 := Nat.mod_lt _ (by decide)
  unfold setBit
  split
  · next hv =>
    split
    · next hij => rw [← hij, hv]
    · rfl
  · cases value
    · simp only [Bool.false_eq_true, if_false]
      rw [bit_modify m _ _ h, testBit_and_not_mask _ hi hj]
      by_cases hq : i / 8 = j / 8 <;> by_cases hr : i % 8 = j % 8 <;> grind [bit]
    · simp only [if_true]
      rw [bit_modify m _ _ h, testBit_or_mask _ hi]
      by_cases hq : i / 8 = j / 8 <;> by_cases hr : i % 8 = j % 8 <;> grind [bit]

@[simp] theorem resolution_setBit (m : Matrix) (i : Nat) (value : Bool) :
    (m.setBit i value).resolution = m.resolution := by
  unfold setBit
  split
  · rfl
  · split <;> rfl

@[simp] theorem size_data_setBit (m : Matrix) (i : Nat) (value : Bool) :
    (m.setBit i value).data.size = m.data.size := by
  unfold setBit
  split
  · rfl
  · split <;> exact Array.size_modify

/-! ## Voxels -/

@[simp] theorem resolution_set (m : Matrix) (p : Position) (value : Bool) :
    (m.set p value).resolution = m.resolution := by
  unfold set
  split
  · exact resolution_setBit ..
  · rfl

theorem get_eq_false {m : Matrix} {p : Position} (h : ¬m.Holds p) : m.get p = false := by
  simp [get, h]

@[simp] theorem get_empty (r : Nat) (p : Position) : (empty r).get p = false := by
  simp only [get, bit, empty, Array.getD_eq_getD_getElem?, Array.getElem?_replicate]
  split <;> simp

theorem pack_div_eight_lt {r : Nat} {p : Position} (h : p.Inside r) :
    p.pack r / 8 < byteCount r := by
  have := Position.pack_lt h
  simp only [byteCount, volume]
  omega

theorem get_set {m : Matrix} (hsize : m.data.size = byteCount m.resolution) {p : Position}
    (hp : m.Holds p) (value : Bool) (q : Position) :
    (m.set p value).get q = if p = q then value else m.get q := by
  have hlt : p.pack m.resolution / 8 < m.data.size := hsize ▸ pack_div_eight_lt hp
  by_cases hq : m.Holds q
  · have hq' : (m.setBit (p.pack m.resolution) value).Holds q := by
      simpa only [Holds, resolution_setBit] using hq
    rw [set, if_pos hp]
    simp only [get, hq, hq', decide_true, Bool.true_and, resolution_setBit, bit_setBit m hlt,
      Position.pack_inj hp hq]
  · have hpq : p ≠ q := fun hpq => hq (hpq ▸ hp)
    rw [get_eq_false hq, get_eq_false (by simpa only [Holds, resolution_set] using hq), if_neg hpq]

end VoxelSwarm.Matrix
