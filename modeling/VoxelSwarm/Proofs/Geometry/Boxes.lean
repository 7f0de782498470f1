import Mathlib.Algebra.Group.Nat.Defs
import Mathlib.Data.List.Nodup
import VoxelSwarm.Step.Path
import VoxelSwarm.Step.Plan

/-!
# Paths and boxes

The voxels that a command names: a near voxel is never the one it is named from, a path contains
both of its ends, the two halves of a bent path meet in the corner, and a box lists each of its
voxels once and lies inside the grid as soon as its corners do. A box has two corners for each axis
along which it is long (`Region.length_corners`).
-/

namespace VoxelSwarm

/-! ## Displacements -/

theorem Position.add_add (p : Position) (d e : Displacement) : p + d + e = p + (d + e) := by
  ext <;> simp only [Position.add_x, Position.add_y, Position.add_z, Displacement.add_dx,
    Displacement.add_dy, Displacement.add_dz] <;> omega

theorem Displacement.Near.add_ne {d : Displacement} (h : d.Near) (p : Position) : p + d ≠ p := by
  intro heq
  have hx := congrArg Position.x heq
  have hy := congrArg Position.y heq
  have hz := congrArg Position.z heq
  have hlen := h.1
  simp only [Position.add_x, Position.add_y, Position.add_z] at hx hy hz
  simp only [Displacement.clen] at hlen
  omega

theorem Displacement.Linear.sign_scale {d : Displacement} (h : d.Linear) :
    d.sign.scale d.mlen = d := by
  have hsign (c : Int) : c.sign * c.natAbs = c := Int.sign_mul_natAbs c
  have hx := hsign d.dx
  have hy := hsign d.dy
  have hz := hsign d.dz
  simp only [Displacement.Linear, Displacement.dimension] at h
  ext <;> simp only [Displacement.scale, Displacement.sign, Displacement.mlen]
  all_goals
    by_cases h0 : d.dx = 0 <;> by_cases h1 : d.dy = 0 <;> by_cases h2 : d.dz = 0 <;>
      simp_all

/-! ## Paths -/

theorem start_mem_straightPath (p : Position) (d : Displacement) : p ∈ straightPath p d := by
  rw [mem_straightPath]
  refine ⟨0, Nat.zero_le _, ?_⟩
  ext <;> simp [Displacement.scale]

theorem stop_mem_straightPath (p : Position) {d : Displacement} (h : d.Linear) :
    p + d ∈ straightPath p d := by
  rw [mem_straightPath]
  exact ⟨d.mlen, Nat.le_refl _, by rw [h.sign_scale]⟩

theorem straightPath_eq_cons (p : Position) (d : Displacement) :
    straightPath p d = p :: (straightPath p d).drop 1 := by
  have hzero : p + d.sign.scale ((0 : Nat) : Int) = p := by ext <;> simp [Displacement.scale]
  simp only [straightPath, List.range_succ_eq_map, List.map_cons, hzero, List.drop_succ_cons,
    List.drop_zero]

theorem mem_bentPath {p q : Position} {d e : Displacement} (h : d.Linear) :
    q ∈ bentPath p d e ↔ q ∈ straightPath p d ∨ q ∈ straightPath (p + d) e := by
  rw [bentPath, List.mem_append, straightPath_eq_cons (p + d) e, List.mem_cons, List.drop_succ_cons,
    List.drop_zero]
  constructor
  · rintro (hq | hq)
    · exact Or.inl hq
    · exact Or.inr (Or.inr hq)
  · rintro (hq | rfl | hq)
    · exact Or.inl hq
    · exact Or.inl (stop_mem_straightPath p h)
    · exact Or.inr hq

/-! ## Boxes -/

theorem Region.nodup_interval (lo hi : Int) : (Region.interval lo hi).Nodup := by
  refine List.nodup_range.map_on ?_
  intro a _ b _ hab
  omega

theorem Region.nodup_grid {xs ys zs : List Int} (hx : xs.Nodup) (hy : ys.Nodup) (hz : zs.Nodup) :
    (Region.grid xs ys zs).Nodup := by
  refine List.nodup_flatMap.2 ⟨fun x _ => List.nodup_flatMap.2 ⟨fun y _ => ?_, ?_⟩, ?_⟩
  · exact hz.map fun a b hab => congrArg Position.z hab
  · refine hy.imp fun hne => List.disjoint_left.2 fun p hp hp' => ?_
    obtain ⟨_, _, rfl⟩ := List.mem_map.1 hp
    obtain ⟨_, _, heq⟩ := List.mem_map.1 hp'
    exact hne (congrArg Position.y heq).symm
  · refine hx.imp fun hne => List.disjoint_left.2 fun p hp hp' => ?_
    obtain ⟨_, _, hp⟩ := List.mem_flatMap.1 hp
    obtain ⟨_, _, rfl⟩ := List.mem_map.1 hp
    obtain ⟨_, _, hp'⟩ := List.mem_flatMap.1 hp'
    obtain ⟨_, _, heq⟩ := List.mem_map.1 hp'
    exact hne (congrArg Position.x heq).symm

theorem Region.nodup_voxels (g : Region) : g.voxels.Nodup :=
  nodup_grid (nodup_interval ..) (nodup_interval ..) (nodup_interval ..)

/-! ## Corners -/

theorem Region.mem_corners {g : Region} {p : Position} :
    p ∈ g.corners ↔ (p.x = g.lo.x ∨ p.x = g.hi.x) ∧ (p.y = g.lo.y ∨ p.y = g.hi.y) ∧
      (p.z = g.lo.z ∨ p.z = g.hi.z) := by
  simp only [corners, mem_grid, mem_ends]

theorem Region.left_mem_corners_spanning (a b : Position) : a ∈ (spanning a b).corners := by
  simp only [mem_corners, spanning]
  omega

theorem Region.length_grid (xs ys zs : List Int) :
    (grid xs ys zs).length = xs.length * (ys.length * zs.length) := by
  simp [grid, List.length_flatMap]

theorem Region.length_ends (lo hi : Int) :
    (ends lo hi).length = 2 ^ (if hi - lo ≠ 0 then 1 else 0) := by
  unfold ends
  split <;> split <;> first | rfl | omega

theorem Region.length_corners (g : Region) : g.corners.length = 2 ^ g.dimension := by
  rw [corners, length_grid, length_ends, length_ends, length_ends, ← Nat.pow_add, ← Nat.pow_add,
    ← Nat.add_assoc]
  rfl

/-! ## Boxes in a grid -/

theorem Region.inside_of_spanning {a b p : Position} {r : Nat} (ha : a.Inside r) (hb : b.Inside r)
    (hp : (Region.spanning a b).Contains p) : p.Inside r := by
  simp only [Region.Contains, Region.spanning, Position.Inside] at *
  omega

end VoxelSwarm
