import VoxelSwarm.Geometry.Position

/-!
# Chains of voxels

Two voxels touch when they share a face, and a set of voxels links two of its members when a chain
of touching members leads from the one to the other. `Linked` serves for full voxels, which hold on
to each other, as well as for void ones, through which a bot can move.
-/

namespace VoxelSwarm

/-! ## Faces -/

/-- The two voxels share a face. -/
def Position.Touches (p q : Position) : Prop := (q - p).Adjacent

instance (p q : Position) : Decidable (p.Touches q) := inferInstanceAs (Decidable (_ = _))

namespace Position

variable {p q : Position}

theorem touches_iff :
    p.Touches q ↔ (q.x - p.x).natAbs + (q.y - p.y).natAbs + (q.z - p.z).natAbs = 1 :=
  Iff.rfl

theorem Touches.symm (h : p.Touches q) : q.Touches p := by
  rw [touches_iff] at *
  omega

theorem Touches.ne (h : p.Touches q) : p ≠ q := by
  rintro rfl
  rw [touches_iff] at h
  omega

theorem add_sub_self (p : Position) (d : Displacement) : p + d - p = d := by
  ext <;> simp only [sub_dx, sub_dy, sub_dz, add_x, add_y, add_z] <;> omega

theorem add_sub_cancel (p q : Position) : p + (q - p) = q := by
  ext <;> simp only [sub_dx, sub_dy, sub_dz, add_x, add_y, add_z] <;> omega

theorem mem_faces {d : Displacement} : d ∈ Displacement.faces ↔ d.Adjacent := by
  constructor
  · revert d
    decide
  · obtain ⟨dx, dy, dz⟩ := d
    intro h
    simp only [Displacement.Adjacent, Displacement.mlen] at h
    have hx : dx = -1 ∨ dx = 0 ∨ dx = 1 := by omega
    have hy : dy = -1 ∨ dy = 0 ∨ dy = 1 := by omega
    have hz : dz = -1 ∨ dz = 0 ∨ dz = 1 := by omega
    rcases hx with rfl | rfl | rfl <;> rcases hy with rfl | rfl | rfl <;>
      rcases hz with rfl | rfl | rfl <;> revert h <;> decide

theorem mem_neighbors {r : Nat} : q ∈ p.neighbors r ↔ p.Touches q ∧ q.Inside r := by
  simp only [neighbors, List.mem_filter, List.mem_map, mem_faces, decide_eq_true_eq, Touches]
  constructor
  · rintro ⟨⟨d, hd, rfl⟩, hq⟩
    exact ⟨by rwa [add_sub_self], hq⟩
  · rintro ⟨hd, hq⟩
    exact ⟨⟨q - p, hd, add_sub_cancel p q⟩, hq⟩

end Position

/-! ## Chains -/

/-- A chain of touching members of `S` leads from `p` to `q`, which are members as well. -/
inductive Linked (S : Position → Prop) (p : Position) : Position → Prop
  | refl : S p → Linked S p p
  | step {q t : Position} : Linked S p q → q.Touches t → S t → Linked S p t

namespace Linked

variable {S T : Position → Prop} {p q t : Position}

theorem left (h : Linked S p q) : S p := by
  induction h with
  | refl hp => exact hp
  | step _ _ _ ih => exact ih

theorem right (h : Linked S p q) : S q := by
  cases h with
  | refl hp => exact hp
  | step _ _ hq => exact hq

theorem trans (h : Linked S p q) (h' : Linked S q t) : Linked S p t := by
  induction h' with
  | refl _ => exact h
  | step _ htouch ht ih => exact .step ih htouch ht

theorem of_touches (hp : S p) (htouch : p.Touches q) (hq : S q) : Linked S p q :=
  .step (.refl hp) htouch hq

theorem symm (h : Linked S p q) : Linked S q p := by
  induction h with
  | refl hp => exact .refl hp
  | step h htouch ht ih => exact (of_touches ht htouch.symm h.right).trans ih

theorem mono (h : Linked S p q) (hsub : ∀ t, S t → T t) : Linked T p q := by
  induction h with
  | refl hp => exact .refl (hsub _ hp)
  | step _ htouch ht ih => exact .step ih htouch (hsub _ ht)

/-- What holds of the first voxel and is handed on between touching members holds of the last. -/
theorem keeps (h : Linked S p q) (P : Position → Prop) (hp : P p)
    (hstep : ∀ s t, S s → P s → s.Touches t → S t → P t) : P q := by
  induction h with
  | refl _ => exact hp
  | step h htouch ht ih => exact hstep _ _ h.right ih htouch ht

end Linked

end VoxelSwarm
