import Mathlib.Tactic.ByContra
import VoxelSwarm.Geometry.Displacement

/-!
# Displacements along an axis

A linear displacement is `along axis v` for an axis and a number that is not zero
(`linear_iff_along`); its lengths, its axis and its repetitions are read off these two.
-/

namespace VoxelSwarm.Displacement

variable {d : Displacement} {a b : Axis} {v w : Int}

theorem linear_iff_along : d.Linear ↔ ∃ a v, v ≠ 0 ∧ d = along a v := by
  constructor
  · intro h
    obtain ⟨dx, dy, dz⟩ := d
    simp only [Linear, dimension] at h
    by_cases hx : dx = 0
    · by_cases hy : dy = 0
      · exact ⟨.z, dz, by rintro rfl; simp [hx, hy] at h, by simp [along, hx, hy]⟩
      · have hz : dz = 0 := by
          by_contra hz
          simp [hx, hy, hz] at h
        exact ⟨.y, dy, hy, by simp [along, hx, hz]⟩
    · have hy : dy = 0 := by
        by_contra hy
        simp only [hx, hy, ne_eq, not_false_iff, if_true] at h
        omega
      have hz : dz = 0 := by
        by_contra hz
        simp [hx, hy, hz] at h
      exact ⟨.x, dx, hx, by simp [along, hy, hz]⟩
  · rintro ⟨a, v, hv, rfl⟩
    cases a <;> simp [Linear, dimension, along, hv]

theorem mlen_along (a : Axis) (v : Int) : (along a v).mlen = v.natAbs := by
  cases a <;> simp [mlen, along]

theorem sign_scale_along (a : Axis) (v k : Int) :
    (along a v).sign.scale k = along a (v.sign * k) := by
  cases a <;> simp [sign, scale, along]

theorem along_add (a : Axis) (v w : Int) : along a v + along a w = along a (v + w) := by
  cases a <;> ext <;> simp [along]

theorem along_zero (a : Axis) : along a 0 = zero := by
  cases a <;> rfl

theorem neg_along (a : Axis) (v : Int) : -along a v = along a (-v) := by
  cases a <;> rfl

theorem axis?_along (hv : v ≠ 0) : (along a v).axis? = some a := by
  have hlinear : (along a v).Linear := linear_iff_along.2 ⟨a, v, hv, rfl⟩
  rw [axis?, if_neg (not_not_intro hlinear)]
  cases a <;> simp [along, hv]

theorem add_comm (d e : Displacement) : d + e = e + d := by
  ext <;> simp only [add_dx, add_dy, add_dz] <;> omega

end VoxelSwarm.Displacement
