import VoxelSwarm.Geometry.Position

/-!
# Regions

A `Region` is an axis-aligned box of voxels, both of its extreme corners included. It is built from
any two opposite corners by `spanning`, which forgets which corner was which.
-/

namespace VoxelSwarm

/-- A box of voxels given by its least and its greatest corner. -/
@[ext]
structure Region where
  lo : Position
  hi : Position
  x_le : lo.x ≤ hi.x
  y_le : lo.y ≤ hi.y
  z_le : lo.z ≤ hi.z
  deriving DecidableEq

namespace Region

/-- The box with `a` and `b` as opposite corners. -/
def spanning (a b : Position) : Region where
  lo := ⟨min a.x b.x, min a.y b.y, min a.z b.z⟩
  hi := ⟨max a.x b.x, max a.y b.y, max a.z b.z⟩
  x_le := by simp only; omega
  y_le := by simp only; omega
  z_le := by simp only; omega

theorem spanning_comm (a b : Position) : spanning a b = spanning b a := by
  ext <;> simp only [spanning] <;> omega

/-- The number of axes along which the box is more than one voxel long. -/
def dimension (g : Region) : Nat := (g.hi - g.lo).dimension

/-- A voxel lies in the box when it does so along every axis. -/
def Contains (g : Region) (p : Position) : Prop :=
  (g.lo.x ≤ p.x ∧ p.x ≤ g.hi.x) ∧ (g.lo.y ≤ p.y ∧ p.y ≤ g.hi.y) ∧ (g.lo.z ≤ p.z ∧ p.z ≤ g.hi.z)

instance (g : Region) (p : Position) : Decidable (g.Contains p) :=
  inferInstanceAs (Decidable ((_ ∧ _) ∧ (_ ∧ _) ∧ (_ ∧ _)))

/-- The one or two ends of an interval. -/
def ends (lo hi : Int) : List Int := if lo = hi then [lo] else [lo, hi]

/-- The integers of an interval, both ends included, in ascending order. -/
def interval (lo hi : Int) : List Int :=
  (List.range (hi - lo + 1).toNat).map fun (k : Nat) => lo + k

/-- All combinations of coordinates, the first axis varying slowest. -/
def grid (xs ys zs : List Int) : List Position :=
  xs.flatMap fun x => ys.flatMap fun y => zs.map fun z => ⟨x, y, z⟩

/-- The distinct corners of the box, in ascending order. -/
def corners (g : Region) : List Position :=
  grid (ends g.lo.x g.hi.x) (ends g.lo.y g.hi.y) (ends g.lo.z g.hi.z)

/-- The voxels of the box, in ascending order. -/
def voxels (g : Region) : List Position :=
  grid (interval g.lo.x g.hi.x) (interval g.lo.y g.hi.y) (interval g.lo.z g.hi.z)

theorem mem_interval {lo hi c : Int} : c ∈ interval lo hi ↔ lo ≤ c ∧ c ≤ hi := by
  simp only [interval, List.mem_map, List.mem_range]
  constructor
  · rintro ⟨k, hk, rfl⟩
    omega
  · rintro ⟨hlo, hhi⟩
    exact ⟨(c - lo).toNat, by omega, by omega⟩

theorem mem_ends {lo hi c : Int} : c ∈ ends lo hi ↔ c = lo ∨ c = hi := by
  unfold ends
  split <;> simp_all

theorem mem_grid {xs ys zs : List Int} {p : Position} :
    p ∈ grid xs ys zs ↔ p.x ∈ xs ∧ p.y ∈ ys ∧ p.z ∈ zs := by
  simp only [grid, List.mem_flatMap, List.mem_map]
  constructor
  · rintro ⟨x, hx, y, hy, z, hz, rfl⟩
    exact ⟨hx, hy, hz⟩
  · rintro ⟨hx, hy, hz⟩
    exact ⟨p.x, hx, p.y, hy, p.z, hz, rfl⟩

theorem mem_voxels {g : Region} {p : Position} : p ∈ g.voxels ↔ g.Contains p := by
  simp only [voxels, mem_grid, mem_interval, Contains]

/-- The first voxel of the box, in ascending order, that a grid of side `r` does not have: the least
corner when that is outside already, else the step that leaves the grid earliest. -/
def firstOutside (g : Region) (r : Nat) : Option Position :=
  if ¬g.lo.Inside r then some g.lo
  else if (r : Int) ≤ g.hi.z then some { g.lo with z := r }
  else if (r : Int) ≤ g.hi.y then some { g.lo with y := r }
  else if (r : Int) ≤ g.hi.x then some { g.lo with x := r }
  else none

theorem firstOutside_eq_none_iff {g : Region} {r : Nat} :
    g.firstOutside r = none ↔ ∀ p, g.Contains p → p.Inside r := by
  have hx := g.x_le
  have hy := g.y_le
  have hz := g.z_le
  unfold firstOutside Contains Position.Inside
  constructor
  · intro h p hp
    grind
  · intro h
    have hlo := h g.lo (by omega)
    have hhi := h g.hi (by omega)
    grind

def count (g : Region) (keep : Position → Bool) : Nat :=
  (interval g.lo.x g.hi.x).foldl (fun total x =>
    (interval g.lo.y g.hi.y).foldl (fun total y =>
      total + (interval g.lo.z g.hi.z).countP fun z => keep ⟨x, y, z⟩) total) 0

end Region

/-- The number of axes along which two positions differ. -/
def regionDimension (a b : Position) : Nat := (b - a).dimension

end VoxelSwarm
