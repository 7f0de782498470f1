import Mathlib.Algebra.BigOperators.Group.List.Basic
import Mathlib.Algebra.Order.Ring.Int
import VoxelSwarm.Matrix.Lemmas

/-!
# Consistent matrices

The fields of a matrix are redundant: the side fixes the number of bytes, the padding bits mean
nothing, and the count of full voxels can be read off the bits. `Consistent` says that the three
agree. Filling and voiding keep it (`Consistent.set`), the count moves with the voxel that is
written (`Consistent.fullCount_set`), and a consistent matrix is determined by its side and its
voxels (`Consistent.ext`).
-/

namespace VoxelSwarm.Matrix

/-- The bytes are as many as the side asks for, no padding bit is set, and the count is that of the
set bits. -/
structure Consistent (m : Matrix) : Prop where
  size : m.data.size = byteCount m.resolution
  padding : ∀ i, volume m.resolution ≤ i → m.bit i = false
  count : m.fullCount = (List.range (volume m.resolution)).countP m.bit

/-! ## Counting -/

theorem countP_range_update {f g : Nat → Bool} {n i : Nat} (hi : i < n)
    (h : ∀ j, j ≠ i → g j = f j) :
    (List.range n).countP g + (f i).toNat = (List.range n).countP f + (g i).toNat := by
  induction n with
  | zero => omega
  | succ n ih =>
    simp only [List.range_succ, List.countP_append, List.countP_singleton]
    by_cases hin : i = n
    · subst hin
      have hbelow : (List.range i).countP g = (List.range i).countP f :=
        List.countP_congr fun j hj => by
          rw [h j (Nat.ne_of_lt (List.mem_range.1 hj))]
      rw [hbelow]
      cases f i <;> cases g i <;> simp
    · have := ih (by omega)
      rw [h n (Ne.symm hin)]
      omega

/-! ## Bits and voxels -/

theorem bit_eq_get (m : Matrix) {i : Nat} (hi : i < volume m.resolution) :
    m.bit i = m.get (Position.unpack m.resolution i) := by
  have hin : m.Holds (Position.unpack m.resolution i) := Position.inside_unpack hi
  simp only [get, hin, decide_true, Bool.true_and, Position.pack_unpack]

theorem get_eq_bit {m : Matrix} {p : Position} (hp : m.Holds p) :
    m.get p = m.bit (p.pack m.resolution) := by
  simp only [get, hp, decide_true, Bool.true_and]

theorem pack_lt_volume {m : Matrix} {p : Position} (hp : m.Holds p) :
    p.pack m.resolution < volume m.resolution :=
  Position.pack_lt hp

theorem holds_set {m : Matrix} {p q : Position} {value : Bool} :
    (m.set p value).Holds q ↔ m.Holds q := by
  simp only [Holds, resolution_set]

@[simp] theorem resolution_setAll (m : Matrix) (ps : List Position) (value : Bool) :
    (m.setAll ps value).resolution = m.resolution := by
  induction ps generalizing m with
  | nil => rfl
  | cons p ps ih => exact (ih (m.set p value)).trans (resolution_set ..)

theorem set_eq_self {m : Matrix} {p : Position} {value : Bool} (h : m.get p = value) :
    m.set p value = m := by
  unfold set
  split
  · next hp => rw [setBit, if_pos (get_eq_bit hp ▸ h)]
  · rfl

theorem byte_ext {a b : UInt8} (h : ∀ k < 8, a.toNat.testBit k = b.toNat.testBit k) : a = b := by
  apply UInt8.toNat_inj.1
  apply Nat.eq_of_testBit_eq
  intro k
  by_cases hk : k < 8
  · exact h k hk
  · have hpow : 2 ^ 8 ≤ 2 ^ k := Nat.pow_le_pow_right (by decide) (by omega)
    rw [Nat.testBit_lt_two_pow (Nat.lt_of_lt_of_le a.toNat_lt hpow),
      Nat.testBit_lt_two_pow (Nat.lt_of_lt_of_le b.toNat_lt hpow)]

namespace Consistent

variable {m m' : Matrix}

theorem bit_lt_size (h : m.Consistent) {i : Nat} (hi : i < volume m.resolution) :
    i / 8 < m.data.size := by
  rw [h.size, byteCount]
  omega

theorem empty (r : Nat) : (empty r).Consistent where
  size := Array.size_replicate
  padding i _ := by
    simp only [bit, Matrix.empty, Array.getD_eq_getD_getElem?, Array.getElem?_replicate]
    split <;> simp
  count := by
    refine (List.countP_eq_zero.2 fun i hi => ?_).symm
    rw [bit_eq_get _ (List.mem_range.1 hi), get_empty]
    exact Bool.false_ne_true

/-! ## Writing -/

theorem fullCount_pos (h : m.Consistent) {i : Nat} (hi : i < volume m.resolution)
    (hbit : m.bit i = true) : 0 < m.fullCount := by
  rw [h.count, List.countP_pos_iff]
  exact ⟨i, List.mem_range.2 hi, hbit⟩

theorem fullCount_setBit (h : m.Consistent) {i : Nat} (hi : i < volume m.resolution)
    (value : Bool) :
    (m.setBit i value).fullCount + (m.bit i).toNat = m.fullCount + value.toNat := by
  unfold setBit
  split
  · next hv => rw [hv]
  · next hv =>
    cases value with
    | true => simp [Bool.eq_false_iff.2 hv]
    | false =>
      have hbit : m.bit i = true := by simpa using hv
      have := h.fullCount_pos hi hbit
      simp [hbit]
      omega

theorem setBit (h : m.Consistent) {i : Nat} (hi : i < volume m.resolution) (value : Bool) :
    (m.setBit i value).Consistent where
  size := by rw [size_data_setBit, resolution_setBit, h.size]
  padding j hj := by
    rw [resolution_setBit] at hj
    rw [bit_setBit m (h.bit_lt_size hi), if_neg (by omega)]
    exact h.padding j hj
  count := by
    have hbit := bit_setBit m (h.bit_lt_size hi) value
    have hupdate := countP_range_update (f := m.bit) (g := (m.setBit i value).bit) hi
      fun j hj => by rw [hbit, if_neg (Ne.symm hj)]
    have hcount := h.fullCount_setBit hi value
    rw [hbit, if_pos rfl, ← h.count] at hupdate
    rw [resolution_setBit]
    omega

theorem set (h : m.Consistent) (p : Position) (value : Bool) : (m.set p value).Consistent := by
  unfold Matrix.set
  split
  · next hp => exact h.setBit (pack_lt_volume hp) value
  · exact h

theorem fullCount_set (h : m.Consistent) {p : Position} (hp : m.Holds p) (value : Bool) :
    (m.set p value).fullCount + (m.get p).toNat = m.fullCount + value.toNat := by
  rw [Matrix.set, if_pos hp, get_eq_bit hp]
  exact h.fullCount_setBit (pack_lt_volume hp) value

theorem get_set (h : m.Consistent) {p : Position} (hp : m.Holds p) (value : Bool) (q : Position) :
    (m.set p value).get q = if p = q then value else m.get q :=
  Matrix.get_set h.size hp value q

/-! ## Writing several voxels -/

theorem setAll (h : m.Consistent) (ps : List Position) (value : Bool) :
    (m.setAll ps value).Consistent := by
  induction ps generalizing m with
  | nil => exact h
  | cons p ps ih => exact ih (h.set p value)

theorem get_setAll (h : m.Consistent) {ps : List Position} (hps : ∀ p ∈ ps, m.Holds p)
    (value : Bool) (q : Position) :
    (m.setAll ps value).get q = if q ∈ ps then value else m.get q := by
  induction ps generalizing m with
  | nil => rfl
  | cons p ps ih =>
    have hrest := ih (h.set p value) fun q hq =>
      holds_set.2 (hps q (List.mem_cons_of_mem _ hq))
    rw [Matrix.setAll, List.foldl_cons, ← Matrix.setAll, hrest,
      h.get_set (hps p List.mem_cons_self)]
    by_cases hq : q ∈ ps <;> by_cases hpq : p = q <;> simp [hq, hpq, eq_comm (a := q)]

/-! ## Extensionality -/

theorem bit_eq (h : m.Consistent) (h' : m'.Consistent) (hr : m.resolution = m'.resolution)
    (hget : ∀ p, m.get p = m'.get p) (i : Nat) : m.bit i = m'.bit i := by
  by_cases hi : i < volume m.resolution
  · rw [bit_eq_get m hi, bit_eq_get m' (hr ▸ hi), hget, hr]
  · rw [h.padding i (by omega), h'.padding i (by rw [← hr]; omega)]

theorem ext_of_bit (h : m.Consistent) (h' : m'.Consistent) (hr : m.resolution = m'.resolution)
    (hbit : ∀ i, m.bit i = m'.bit i) : m = m' := by
  have hcount : m.fullCount = m'.fullCount := by
    rw [h.count, h'.count, hr]
    exact List.countP_congr fun i _ => by rw [hbit i]
  have hsize : m.data.size = m'.data.size := by rw [h.size, h'.size, hr]
  have hdata : m.data = m'.data := by
    apply Array.ext hsize
    intro j hj hj'
    apply byte_ext
    intro k hk
    have := hbit (8 * j + k)
    have hdiv : (8 * j + k) / 8 = j := by omega
    have hmod : (8 * j + k) % 8 = k := by omega
    simpa only [bit, hdiv, hmod, Array.getD_eq_getD_getElem?, Array.getElem?_eq_getElem hj,
      Array.getElem?_eq_getElem hj', Option.getD_some] using this
  exact Matrix.ext hr hcount hdata

theorem ext (h : m.Consistent) (h' : m'.Consistent) (hr : m.resolution = m'.resolution)
    (hget : ∀ p, m.get p = m'.get p) : m = m' :=
  h.ext_of_bit h' hr (h.bit_eq h' hr hget)

/-- The count moves with every voxel that changes. -/
theorem fullCount_eq (h : m.Consistent) (h' : m'.Consistent) (hr : m'.resolution = m.resolution)
    {ps : List Position} (hnodup : ps.Nodup) (hps : ∀ p ∈ ps, m.Holds p)
    (hrest : ∀ p, p ∉ ps → m'.get p = m.get p) :
    (m'.fullCount : Int) =
      m.fullCount + (ps.map fun p => ((m'.get p).toNat : Int) - (m.get p).toNat).sum := by
  induction ps generalizing m with
  | nil =>
    have heq : m' = m := h'.ext h hr fun p => hrest p (by simp)
    simp [heq]
  | cons p ps ih =>
    obtain ⟨hp, hnodup⟩ := List.nodup_cons.1 hnodup
    have hholds := hps p List.mem_cons_self
    have hget := h.get_set hholds (m'.get p)
    -- one voxel is set to what it becomes, the others follow by induction
    have hothers := ih (h.set p (m'.get p)) (hr.trans (resolution_set ..).symm) hnodup
      (fun q hq => holds_set.2 (hps q (List.mem_cons_of_mem _ hq))) fun q hq => by
        rw [hget]
        split
        · next heq => rw [heq]
        · next hne => exact hrest q (by simp [Ne.symm hne, hq])
    have hsame : (ps.map fun q => ((m'.get q).toNat : Int) - ((m.set p (m'.get p)).get q).toNat) =
        ps.map fun q => ((m'.get q).toNat : Int) - (m.get q).toNat :=
      List.map_congr_left fun q hq => by
        have hne : p ≠ q := fun heq => hp (heq ▸ hq)
        rw [hget, if_neg hne]
    have hfirst := h.fullCount_set hholds (m'.get p)
    rw [hothers, hsame, List.map_cons, List.sum_cons]
    omega

end Consistent

end VoxelSwarm.Matrix
