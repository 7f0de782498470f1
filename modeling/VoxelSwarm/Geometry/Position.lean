import VoxelSwarm.Geometry.Displacement

/-!
# Positions

A `Position` names a voxel. Coordinates are integers, so that a step out of the grid is a position
that is not `Inside` and no arithmetic fails. Inside a grid of side `r` the positions are numbered
row by row: `pack` gives the number and `unpack` reads it back.
-/

namespace VoxelSwarm

/-- The location of one voxel. -/
@[ext]
structure Position where
  x : Int
  y : Int
  z : Int
  deriving DecidableEq, Repr, Inhabited

namespace Position

/-- The corner of the grid where the first bot starts and the last one halts. -/
def origin : Position := ⟨0, 0, 0⟩

instance : HAdd Position Displacement Position where
  hAdd p d := ⟨p.x + d.dx, p.y + d.dy, p.z + d.dz⟩

instance : HSub Position Displacement Position where
  hSub p d := ⟨p.x - d.dx, p.y - d.dy, p.z - d.dz⟩

instance : HSub Position Position Displacement where
  hSub p q := ⟨p.x - q.x, p.y - q.y, p.z - q.z⟩

@[simp] theorem add_x (p : Position) (d : Displacement) : (p + d).x = p.x + d.dx := rfl
@[simp] theorem add_y (p : Position) (d : Displacement) : (p + d).y = p.y + d.dy := rfl
@[simp] theorem add_z (p : Position) (d : Displacement) : (p + d).z = p.z + d.dz := rfl
@[simp] theorem sub_dx (p q : Position) : (p - q).dx = p.x - q.x := rfl
@[simp] theorem sub_dy (p q : Position) : (p - q).dy = p.y - q.y := rfl
@[simp] theorem sub_dz (p q : Position) : (p - q).dz = p.z - q.z := rfl

/-- Positions are ordered by `x`, then `y`, then `z`. -/
instance : LT Position where
  lt p q := p.x < q.x ∨ p.x = q.x ∧ (p.y < q.y ∨ p.y = q.y ∧ p.z < q.z)

instance (p q : Position) : Decidable (p < q) :=
  inferInstanceAs (Decidable (_ ∨ _ ∧ (_ ∨ _ ∧ _)))

instance : Ord Position where
  compare p q := compareOfLessAndEq p q

/-- Every coordinate of an inside position is between zero and the side of the grid. -/
def Inside (p : Position) (r : Nat) : Prop :=
  (0 ≤ p.x ∧ p.x < r) ∧ (0 ≤ p.y ∧ p.y < r) ∧ (0 ≤ p.z ∧ p.z < r)

instance (p : Position) (r : Nat) : Decidable (p.Inside r) :=
  inferInstanceAs (Decidable ((_ ∧ _) ∧ (_ ∧ _) ∧ (_ ∧ _)))

/-- The number of an inside position in a grid of side `r`, counting along `z` first. -/
def pack (r : Nat) (p : Position) : Nat := (p.x.toNat * r + p.y.toNat) * r + p.z.toNat

def unpack (r index : Nat) : Position :=
  ⟨(index / (r * r) : Nat), (index / r % r : Nat), (index % r : Nat)⟩

theorem pack_lt {p : Position} {r : Nat} (h : p.Inside r) : p.pack r < r * r * r := by
  obtain ⟨⟨hx, hx'⟩, ⟨hy, hy'⟩, hz, hz'⟩ := h
  have hxy : p.x.toNat * r + p.y.toNat < r * r := by
    have : (p.x.toNat + 1) * r ≤ r * r := Nat.mul_le_mul_right r (by omega)
    rw [Nat.succ_mul] at this
    omega
  have : (p.x.toNat * r + p.y.toNat + 1) * r ≤ r * r * r := Nat.mul_le_mul_right r hxy
  rw [Nat.succ_mul] at this
  simp only [pack]
  omega

theorem unpack_pack {p : Position} {r : Nat} (h : p.Inside r) : unpack r (p.pack r) = p := by
  obtain ⟨⟨hx, hx'⟩, ⟨hy, hy'⟩, hz, hz'⟩ := h
  have hr : 0 < r := by omega
  have hxy : p.pack r / r = p.x.toNat * r + p.y.toNat := by
    simp only [pack]
    rw [Nat.mul_comm, Nat.mul_add_div hr, Nat.div_eq_of_lt (by omega), Nat.add_zero]
  have hx : (p.x.toNat * r + p.y.toNat) / r = p.x.toNat := by
    rw [Nat.mul_comm, Nat.mul_add_div hr, Nat.div_eq_of_lt (by omega), Nat.add_zero]
  ext <;> simp only [unpack]
  · rw [← Nat.div_div_eq_div_mul, hxy, hx]
    omega
  · rw [hxy, Nat.mul_comm, Nat.mul_add_mod, Nat.mod_eq_of_lt (by omega)]
    omega
  · rw [pack, Nat.mul_comm, Nat.mul_add_mod, Nat.mod_eq_of_lt (by omega)]
    omega

theorem pack_unpack (r index : Nat) : (unpack r index).pack r = index := by
  simp only [pack, unpack, Int.toNat_natCast]
  rw [← Nat.div_div_eq_div_mul, Nat.div_add_mod', Nat.div_add_mod']

theorem inside_unpack {r index : Nat} (h : index < r * r * r) : (unpack r index).Inside r := by
  have hr : 0 < r := Nat.pos_of_ne_zero fun hr => by simp [hr] at h
  have hx : index / (r * r) < r := Nat.div_lt_of_lt_mul h
  have hy : index / r % r < r := Nat.mod_lt _ hr
  have hz : index % r < r := Nat.mod_lt _ hr
  exact ⟨⟨Int.natCast_nonneg _, Int.ofNat_lt.2 hx⟩, ⟨Int.natCast_nonneg _, Int.ofNat_lt.2 hy⟩,
    Int.natCast_nonneg _, Int.ofNat_lt.2 hz⟩

theorem pack_inj {p q : Position} {r : Nat} (hp : p.Inside r) (hq : q.Inside r) :
    p.pack r = q.pack r ↔ p = q :=
  ⟨fun h => by rw [← unpack_pack hp, h, unpack_pack hq], fun h => by rw [h]⟩

/-- The positions of a grid of side `r` that share a face with `p`. -/
def neighbors (r : Nat) (p : Position) : List Position :=
  (Displacement.faces.map (p + ·)).filter (fun q => q.Inside r)

/-- A position is written between parentheses. -/
def text (p : Position) : String :=
  "(" ++ toString p.x ++ ", " ++ toString p.y ++ ", " ++ toString p.z ++ ")"

end Position

end VoxelSwarm
