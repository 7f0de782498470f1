import VoxelSwarm.Proofs.Geometry.Boxes
import VoxelSwarm.Proofs.Geometry.Order

/-!
# What two voxels span

A box does not remember the corners it was built from, only which voxels it has. The voxels are
listed in ascending order, as the coordinates of a grid are whenever those along each axis are
(`Region.pairwise_grid`). The corners are the choices of one end on each axis; on an axis along
which the box is flat there is one end to choose, so that no corner is listed twice, just as if all
eight choices had been made and repeated ones dropped (`Region.corners_eq_eraseDups`). Two voxels
span a given box exactly when they are opposite corners of it (`Region.spanning_eq_iff`).
-/

namespace VoxelSwarm.Region

/-- Two corners of a box that differ along every axis along which it is long. -/
structure Opposite (g : Region) (c d : Position) : Prop where
  left : c ∈ g.corners
  right : d ∈ g.corners
  x : g.lo.x ≠ g.hi.x → c.x ≠ d.x
  y : g.lo.y ≠ g.hi.y → c.y ≠ d.y
  z : g.lo.z ≠ g.hi.z → c.z ≠ d.z

/-- The choices of an end on each axis. Those of a box that is flat somewhere repeat themselves. -/
def choices (g : Region) : List Position :=
  grid [g.lo.x, g.hi.x] [g.lo.y, g.hi.y] [g.lo.z, g.hi.z]

variable {g : Region} {a b c d p : Position}

/-! ## Voxels -/

theorem length_interval (lo hi : Int) : (interval lo hi).length = (hi - lo + 1).toNat := by
  rw [interval, List.length_map, List.length_range]

theorem pairwise_interval (lo hi : Int) : (interval lo hi).Pairwise (· < ·) := by
  rw [interval, List.pairwise_map]
  exact List.pairwise_lt_range.imp fun hij => by omega

theorem pairwise_grid {xs ys zs : List Int} (hx : xs.Pairwise (· < ·)) (hy : ys.Pairwise (· < ·))
    (hz : zs.Pairwise (· < ·)) : (grid xs ys zs).Pairwise (· < ·) := by
  refine List.pairwise_flatMap.2 ⟨fun x _ => List.pairwise_flatMap.2 ⟨fun y _ => ?_, ?_⟩, ?_⟩
  · exact List.pairwise_map.2 (hz.imp fun hlt => Or.inr ⟨rfl, Or.inr ⟨rfl, hlt⟩⟩)
  · refine hy.imp fun hlt p hp q hq => ?_
    obtain ⟨_, _, rfl⟩ := List.mem_map.1 hp
    obtain ⟨_, _, rfl⟩ := List.mem_map.1 hq
    exact Or.inr ⟨rfl, Or.inl hlt⟩
  · refine hx.imp fun hlt p hp q hq => ?_
    obtain ⟨_, _, hp⟩ := List.mem_flatMap.1 hp
    obtain ⟨_, _, rfl⟩ := List.mem_map.1 hp
    obtain ⟨_, _, hq⟩ := List.mem_flatMap.1 hq
    obtain ⟨_, _, rfl⟩ := List.mem_map.1 hq
    exact Or.inl hlt

theorem pairwise_voxels (g : Region) : g.voxels.Pairwise (· < ·) :=
  pairwise_grid (pairwise_interval ..) (pairwise_interval ..) (pairwise_interval ..)

theorem length_voxels_spanning (a b : Position) : (spanning a b).voxels.length =
    ((b - a).dx.natAbs + 1) * ((b - a).dy.natAbs + 1) * ((b - a).dz.natAbs + 1) := by
  have hextent (m n : Int) : (max m n - min m n + 1).toNat = (n - m).natAbs + 1 := by omega
  simp only [voxels, length_grid, length_interval, spanning, hextent, Position.sub_dx,
    Position.sub_dy, Position.sub_dz, Nat.mul_assoc]

/-! ## Corners -/

theorem nodup_corners (g : Region) : g.corners.Nodup := by
  have hends (lo hi : Int) : (ends lo hi).Nodup := by
    unfold ends
    split <;> simp [*]
  exact nodup_grid (hends ..) (hends ..) (hends ..)

theorem corners_eq_eraseDups (g : Region) : g.corners = g.choices.eraseDups := by
  by_cases hx : g.lo.x = g.hi.x <;> by_cases hy : g.lo.y = g.hi.y <;>
    by_cases hz : g.lo.z = g.hi.z <;>
    simp [corners, choices, ends, grid, List.eraseDups_cons, hx, hy, hz,
      eq_comm (a := g.hi.x), eq_comm (a := g.hi.y), eq_comm (a := g.hi.z)]

theorem mem_corners_spanning : p ∈ (spanning a b).corners ↔
    (p.x = a.x ∨ p.x = b.x) ∧ (p.y = a.y ∨ p.y = b.y) ∧ (p.z = a.z ∨ p.z = b.z) := by
  simp only [mem_corners, spanning]
  omega

theorem ends_eq {lo hi m n : Int} (hle : lo ≤ hi) (hm : m = lo ∨ m = hi) (hn : n = lo ∨ n = hi)
    (hne : lo ≠ hi → m ≠ n) : min m n = lo ∧ max m n = hi := by
  omega

/-- A box is spanned by its opposite corners and by no other voxels. -/
theorem spanning_eq_iff : spanning c d = g ↔ g.Opposite c d := by
  constructor
  · rintro rfl
    refine ⟨left_mem_corners_spanning c d, ?_, ?_, ?_, ?_⟩
    · rw [spanning_comm]
      exact left_mem_corners_spanning d c
    all_goals
      simp only [spanning]
      omega
  · intro h
    obtain ⟨hcx, hcy, hcz⟩ := mem_corners.1 h.left
    obtain ⟨hdx, hdy, hdz⟩ := mem_corners.1 h.right
    obtain ⟨hxlo, hxhi⟩ := ends_eq g.x_le hcx hdx h.x
    obtain ⟨hylo, hyhi⟩ := ends_eq g.y_le hcy hdy h.y
    obtain ⟨hzlo, hzhi⟩ := ends_eq g.z_le hcz hdz h.z
    ext
    · exact hxlo
    · exact hylo
    · exact hzlo
    · exact hxhi
    · exact hyhi
    · exact hzhi

/-- Which of two voxels comes first makes no difference to the box. Its voxels are listed once each
and in ascending order, as many as the extents say. Its corners are listed once each, two for each
axis along which it is long, and they are what the coordinates of the two voxels make. A voxel and
a displacement from it give a box just when they lead from a corner of that box to the opposite
one. -/
theorem spanning_exact (a b : Position) :
    spanning a b = spanning b a ∧
    ((∀ p, p ∈ (spanning a b).voxels ↔ (spanning a b).Contains p) ∧
      (spanning a b).voxels.Nodup ∧ (spanning a b).voxels.Pairwise (· < ·) ∧
      (spanning a b).voxels.length =
        ((b - a).dx.natAbs + 1) * ((b - a).dy.natAbs + 1) * ((b - a).dz.natAbs + 1)) ∧
    ((spanning a b).corners.Nodup ∧
      (spanning a b).corners.length = 2 ^ (spanning a b).dimension ∧
      (spanning a b).corners = (spanning a b).choices.eraseDups ∧
      ∀ p, p ∈ (spanning a b).corners ↔
        (p.x = a.x ∨ p.x = b.x) ∧ (p.y = a.y ∨ p.y = b.y) ∧ (p.z = a.z ∨ p.z = b.z)) ∧
    ∀ (g : Region) (c : Position) (fd : Displacement),
      spanning c (c + fd) = g ↔ g.Opposite c (c + fd) :=
  ⟨spanning_comm a b,
    ⟨fun _ => mem_voxels, nodup_voxels _, pairwise_voxels _, length_voxels_spanning a b⟩,
    ⟨nodup_corners _, length_corners _, corners_eq_eraseDups _, fun _ => mem_corners_spanning⟩,
    fun _ _ _ => spanning_eq_iff⟩

/-- A box that is flat along one axis has four corners, and each of them has one opposite to it. -/
example : (spanning ⟨3, 0, 1⟩ ⟨1, 2, 1⟩).corners = [⟨1, 0, 1⟩, ⟨1, 2, 1⟩, ⟨3, 0, 1⟩, ⟨3, 2, 1⟩] ∧
    spanning ⟨1, 2, 1⟩ ((⟨1, 2, 1⟩ : Position) + (⟨2, -2, 0⟩ : Displacement)) =
      spanning ⟨3, 0, 1⟩ ⟨1, 2, 1⟩ := by
  decide

end VoxelSwarm.Region
