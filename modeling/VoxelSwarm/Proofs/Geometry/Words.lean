import Mathlib.Algebra.Group.Nat.Defs
import Mathlib.Data.Set.Function
import VoxelSwarm.Proofs.Geometry.Order

/-!
# Numbers of voxels in words

Inside a grid the voxels and the numbers below its volume are in bijection, and the bijection keeps
the order. `pack` and `unpack` compute it with integers of any size. A machine has words of some
number of bits: coordinates are signed words of 32 bits, numbers are unsigned words of `w` bits, and
a sum or a product that a word cannot hold is an error, as is a division by zero. `packIn` and
`unpackIn` compute with such words. As long as a coordinate can hold the side of the grid and a
number its volume, nothing goes wrong and nothing is lost (`packing_exact`).
-/

namespace VoxelSwarm

/-! ## Words -/

namespace Word

variable {w : Nat}

/-- The sum of two words, if a word can hold it. -/
def add? (a b : BitVec w) : Option (BitVec w) := if a.uaddOverflow b then none else some (a + b)

def mul? (a b : BitVec w) : Option (BitVec w) := if a.umulOverflow b then none else some (a * b)

def div? (a b : BitVec w) : Option (BitVec w) := if b = 0 then none else some (a / b)

def mod? (a b : BitVec w) : Option (BitVec w) := if b = 0 then none else some (a % b)

/-- The lowest 32 bits of a word, read with a sign. -/
def coordinate (a : BitVec w) : Int := (a.setWidth 32).toInt

variable {m n : Nat}

theorem add?_ofNat (h : m + n < 2 ^ w) :
    add? (BitVec.ofNat w m) (BitVec.ofNat w n) = some (BitVec.ofNat w (m + n)) := by
  have hm : m % 2 ^ w = m := Nat.mod_eq_of_lt (by omega)
  have hn : n % 2 ^ w = n := Nat.mod_eq_of_lt (by omega)
  rw [add?, if_neg, BitVec.ofNat_add]
  simp only [BitVec.uaddOverflow, BitVec.toNat_ofNat, hm, hn, decide_eq_true_eq]
  omega

theorem mul?_ofNat (h : m * n < 2 ^ w) :
    mul? (BitVec.ofNat w m) (BitVec.ofNat w n) = some (BitVec.ofNat w (m * n)) := by
  have hle : m % 2 ^ w * (n % 2 ^ w) ≤ m * n :=
    Nat.mul_le_mul (Nat.mod_le ..) (Nat.mod_le ..)
  rw [mul?, if_neg, BitVec.ofNat_mul]
  simp only [BitVec.umulOverflow, BitVec.toNat_ofNat, decide_eq_true_eq]
  omega

theorem ofNat_ne_zero (hpos : 0 < n) (hn : n < 2 ^ w) : BitVec.ofNat w n ≠ 0 := by
  intro h
  have hzero : n = 0 := by simpa [Nat.mod_eq_of_lt hn] using congrArg BitVec.toNat h
  omega

theorem div?_ofNat (hm : m < 2 ^ w) (hpos : 0 < n) (hn : n < 2 ^ w) :
    div? (BitVec.ofNat w m) (BitVec.ofNat w n) = some (BitVec.ofNat w (m / n)) := by
  rw [div?, if_neg (ofNat_ne_zero hpos hn), Option.some_inj]
  apply BitVec.eq_of_toNat_eq
  have hle := Nat.div_le_self m n
  simp only [BitVec.toNat_udiv, BitVec.toNat_ofNat, Nat.mod_eq_of_lt hm, Nat.mod_eq_of_lt hn]
  exact (Nat.mod_eq_of_lt (by omega)).symm

theorem mod?_ofNat (hm : m < 2 ^ w) (hpos : 0 < n) (hn : n < 2 ^ w) :
    mod? (BitVec.ofNat w m) (BitVec.ofNat w n) = some (BitVec.ofNat w (m % n)) := by
  rw [mod?, if_neg (ofNat_ne_zero hpos hn), Option.some_inj]
  apply BitVec.eq_of_toNat_eq
  have hle := Nat.mod_le m n
  simp only [BitVec.toNat_umod, BitVec.toNat_ofNat, Nat.mod_eq_of_lt hm, Nat.mod_eq_of_lt hn]
  exact (Nat.mod_eq_of_lt (by omega)).symm

theorem coordinate_ofNat (hn : n < 2 ^ w) (hsigned : n < 2 ^ 31) :
    coordinate (BitVec.ofNat w n) = n := by
  have h32 : n % 2 ^ 32 = n := Nat.mod_eq_of_lt (by omega)
  rw [coordinate, BitVec.toInt_eq_toNat_of_lt]
  all_goals simp only [BitVec.toNat_setWidth, BitVec.toNat_ofNat, Nat.mod_eq_of_lt hn, h32]
  omega

end Word

namespace Position

open Word

/-- The number of a position, computed in words of `w` bits. -/
def packIn (w r : Nat) (p : Position) : Option (BitVec w) := do
  let side := BitVec.ofNat w r
  let row ← add? (← mul? (BitVec.ofInt w p.x) side) (BitVec.ofInt w p.y)
  add? (← mul? row side) (BitVec.ofInt w p.z)

/-- The position with a given number, computed in words of `w` bits. -/
def unpackIn {w : Nat} (r : Nat) (index : BitVec w) : Option Position := do
  let side := BitVec.ofNat w r
  let x ← div? index (← mul? side side)
  let y ← mod? (← div? index side) side
  let z ← mod? index side
  return ⟨coordinate x, coordinate y, coordinate z⟩

variable {p q : Position} {r w index : Nat}

/-- No intermediate result is greater than the number that comes out. -/
theorem packIn_eq (hword : r * r * r < 2 ^ w) (hp : p.Inside r) :
    p.packIn w r = some (BitVec.ofNat w (p.pack r)) := by
  have hlt : p.pack r < 2 ^ w := Nat.lt_trans (pack_lt hp) hword
  obtain ⟨⟨hx, hx'⟩, ⟨hy, -⟩, ⟨hz, -⟩⟩ := hp
  have hr : 0 < r := by omega
  have hrow : p.x.toNat * r + p.y.toNat ≤ (p.x.toNat * r + p.y.toNat) * r :=
    Nat.le_mul_of_pos_right _ hr
  have hcast {c : Int} (hc : 0 ≤ c) : BitVec.ofInt w c = BitVec.ofNat w c.toNat := by
    rw [← BitVec.ofInt_natCast, Int.toNat_of_nonneg hc]
  rw [pack] at hlt
  simp only [packIn, pack, hcast hx, hcast hy, hcast hz, Option.bind_eq_bind]
  rw [mul?_ofNat (by omega), Option.bind_some, add?_ofNat (by omega), Option.bind_some,
    mul?_ofNat (by omega), Option.bind_some, add?_ofNat hlt]

theorem unpackIn_eq (hside : r < 2 ^ 31) (hword : r * r * r < 2 ^ w) (hindex : index < r * r * r) :
    unpackIn r (BitVec.ofNat w index) = some (unpack r index) := by
  have hr : 0 < r := Nat.pos_of_ne_zero fun hr => by simp [hr] at hindex
  have hlayer : 0 < r * r := Nat.mul_pos hr hr
  have hlayer' : r * r < 2 ^ w := Nat.lt_of_le_of_lt (Nat.le_mul_of_pos_right _ hr) hword
  have hr' : r < 2 ^ w := Nat.lt_of_le_of_lt (Nat.le_mul_of_pos_right _ hr) hlayer'
  have hindex' : index < 2 ^ w := Nat.lt_trans hindex hword
  have hrow : index / r < 2 ^ w := Nat.lt_of_le_of_lt (Nat.div_le_self ..) hindex'
  have hx : index / (r * r) < r := Nat.div_lt_of_lt_mul hindex
  have hy : index / r % r < r := Nat.mod_lt _ hr
  have hz : index % r < r := Nat.mod_lt _ hr
  simp only [unpackIn, Option.bind_eq_bind, Option.pure_def]
  rw [mul?_ofNat hlayer', Option.bind_some, div?_ofNat hindex' hlayer hlayer', Option.bind_some,
    div?_ofNat hindex' hr hr', Option.bind_some, mod?_ofNat hrow hr hr', Option.bind_some,
    mod?_ofNat hindex' hr hr', Option.bind_some, coordinate_ofNat (by omega) (by omega),
    coordinate_ofNat (by omega) (by omega), coordinate_ofNat (by omega) (by omega), unpack]

theorem bijOn_pack (r : Nat) :
    Set.BijOn (pack r) {p | p.Inside r} {index | index < r * r * r} :=
  ⟨fun _ hp => pack_lt hp, fun _ hp _ hq => (pack_inj hp hq).1,
    fun index hindex => ⟨unpack r index, inside_unpack hindex, pack_unpack r index⟩⟩

/-- The voxels of a grid are numbered from zero on, each number below the volume is that of one
voxel, and the order of the voxels is that of their numbers. Words can do the arithmetic, if a
coordinate can hold the side and a number the volume. -/
theorem packing_exact (hside : r < 2 ^ 31) (hword : r ^ 3 < 2 ^ w) :
    Set.BijOn (pack r) {p | p.Inside r} {index | index < r ^ 3} ∧
    (∀ p : Position, p.Inside r → unpack r (p.pack r) = p) ∧
    (∀ index < r ^ 3, (unpack r index).Inside r ∧ (unpack r index).pack r = index) ∧
    (∀ p q : Position, p.Inside r → q.Inside r → (p < q ↔ p.pack r < q.pack r)) ∧
    (∀ p : Position, p.Inside r → p.packIn w r = some (BitVec.ofNat w (p.pack r))) ∧
    ∀ index < r ^ 3, unpackIn r (BitVec.ofNat w index) = some (unpack r index) := by
  have hvolume : r ^ 3 = r * r * r := by rw [Nat.pow_succ, Nat.pow_two]
  rw [hvolume] at hword ⊢
  refine ⟨bijOn_pack r, ?_, ?_, ?_, ?_, ?_⟩
  · intro p hp
    exact unpack_pack hp
  · intro index hindex
    exact ⟨inside_unpack hindex, pack_unpack r index⟩
  · intro p q hp hq
    exact (pack_lt_pack_iff hp hq).symm
  · intro p hp
    exact packIn_eq hword hp
  · intro index hindex
    exact unpackIn_eq hside hword hindex

theorem packing_exact_largest :
    250 < 2 ^ 31 ∧ 250 ^ 3 < 2 ^ 24 ∧
    Position.packIn 24 250 ⟨249, 0, 248⟩ = some (BitVec.ofNat 24 15562748) ∧
    unpackIn 250 (BitVec.ofNat 24 15562748) = some ⟨249, 0, 248⟩ ∧
    ((⟨249, 0, 248⟩ : Position) < ⟨249, 1, 0⟩ ↔ 15562748 < 15562750) := by
  obtain ⟨-, -, -, horder, hpack, hunpack⟩ :=
    packing_exact (r := 250) (w := 24) (by decide) (by decide)
  exact ⟨by decide, by decide, hpack ⟨249, 0, 248⟩ (by decide), hunpack 15562748 (by decide),
    horder ⟨249, 0, 248⟩ ⟨249, 1, 0⟩ (by decide) (by decide)⟩

end Position

end VoxelSwarm
