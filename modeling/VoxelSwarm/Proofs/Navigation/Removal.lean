import VoxelSwarm.Navigation.Removal
import VoxelSwarm.Proofs.Matrix.Flood

/-!
# Voiding a voxel leaves no other afloat

`safeToChange_iff_grounded` says that the test is exact, that the matrix comes back as it was and
that the second count is never above the first.

When the neighborhood decides, what a chain lost with the voxel is led around it
(`grounded_of_middleRemovable`): as the cube has no more components without its middle, any two
neighbors of the voxel are linked within the cube, and a chain of cells that begins with a grounded
voxel or below the ground plane is one of grounded voxels wherever it is above. Otherwise the counts
decide, because no voxel becomes grounded (`grounded_subset_erase`).
-/

namespace VoxelSwarm.Matrix

variable {m : Matrix} {p q t : Position}

theorem full_set_iff (h : m.Consistent) (hp : m.Holds p) :
    (m.set p false).Full q ↔ m.Full q ∧ q ≠ p := by
  rw [Full, h.get_set hp]
  split
  · next heq => simp [heq]
  · next hne => simp [Ne.symm hne]

/-! ## The cube around a voxel -/

/-- The voxel of which a cell of the cube around `p` tells. -/
def place (p cell : Position) : Position := p + (cell - cubeMiddle)

/-- The cell of the cube around `p` that tells of `q`. -/
def cell (p q : Position) : Position := cubeMiddle + (q - p)

/-- The voxel is full or below the ground plane, where it counts as full. -/
def Solid (m : Matrix) (q : Position) : Prop := q.y < 0 ∨ m.Full q

theorem place_cell (p q : Position) : place p (cell p q) = q := by
  rw [place, cell, Position.add_sub_self, Position.add_sub_cancel]

theorem place_eq_iff : place p q = p ↔ q = cubeMiddle := by
  simp only [place, Position.ext_iff, Position.add_x, Position.add_y, Position.add_z,
    Position.sub_dx, Position.sub_dy, Position.sub_dz]
  omega

theorem touches_place : (place p q).Touches (place p t) ↔ q.Touches t := by
  simp only [Position.touches_iff, place, Position.add_x, Position.add_y, Position.add_z,
    Position.sub_dx, Position.sub_dy, Position.sub_dz]
  omega

theorem inside_cell (h : p.Touches q) : (cell p q).Inside 3 := by
  rw [Position.touches_iff] at h
  simp only [cell, cubeMiddle, Position.Inside, Position.add_x, Position.add_y, Position.add_z,
    Position.sub_dx, Position.sub_dy, Position.sub_dz]
  omega

theorem full_neighborhood : (m.neighborhood p).Full q ↔ q.Inside 3 ∧ m.Solid (place p q) := by
  have hmem : ∀ q ∈ allVoxels 3, q.Inside 3 := fun q hq => by
    obtain ⟨i, hi, rfl⟩ := List.mem_map.1 hq
    exact Position.inside_unpack (List.mem_range.1 hi)
  rw [Full, neighborhood,
    (Consistent.empty 3).get_setAll fun q hq => hmem q (List.mem_filter.1 hq).1]
  simp only [get_empty, List.mem_filter, Bool.or_eq_true, decide_eq_true_eq]
  constructor
  · intro h
    split at h
    · next hq => exact ⟨hmem q hq.1, hq.2⟩
    · cases h
  · rintro ⟨hq, hsolid⟩
    rw [if_pos ⟨mem_allVoxels hq, hsolid⟩]

theorem consistent_neighborhood (m : Matrix) (p : Position) : (m.neighborhood p).Consistent :=
  (Consistent.empty 3).setAll ..

theorem full_neighborhood_set : ((m.neighborhood p).set cubeMiddle false).Full q ↔
    (q.Inside 3 ∧ m.Solid (place p q)) ∧ q ≠ cubeMiddle := by
  have hmiddle : (m.neighborhood p).Holds cubeMiddle := by
    rw [Holds, neighborhood, resolution_setAll]
    decide
  rw [← full_neighborhood, full_set_iff (consistent_neighborhood m p) hmiddle]

/-- When the cube is not split by the loss of its middle, any two neighbors of the voxel are linked
within the cube. -/
theorem linked_of_middleRemovable (hp : m.Full p) (hcube : (m.neighborhood p).middleRemovable)
    (hpq : p.Touches q) (hq : m.Solid q) (hpt : p.Touches t) (ht : m.Solid t) :
    Linked ((m.neighborhood p).set cubeMiddle false).Full (cell p q) (cell p t) := by
  have hmiddle : (m.neighborhood p).Full cubeMiddle :=
    full_neighborhood.2 ⟨by decide, Or.inr (by rwa [place_eq_iff.2 rfl])⟩
  have hcell : ∀ n, p.Touches n → m.Solid n →
      ((m.neighborhood p).set cubeMiddle false).Full (cell p n) ∧
        Linked (m.neighborhood p).Full cubeMiddle (cell p n) := by
    intro n hpn hn
    have htouch : cubeMiddle.Touches (cell p n) := by
      rw [← touches_place (p := p), place_cell, place_eq_iff.2 rfl]
      exact hpn
    have hsolid : m.Solid (place p (cell p n)) := by rwa [place_cell]
    exact ⟨full_neighborhood_set.2 ⟨⟨inside_cell hpn, hsolid⟩, htouch.ne.symm⟩,
      .of_touches hmiddle htouch (full_neighborhood.2 ⟨inside_cell hpn, hsolid⟩)⟩
  obtain ⟨hq', hlq⟩ := hcell q hpq hq
  obtain ⟨ht', hlt⟩ := hcell t hpt ht
  by_contra hapart
  have hlt := componentCount_lt (fun s hs => full_neighborhood.2 (full_neighborhood_set.1 hs).1)
    (fun s hs hne => full_neighborhood_set.2 ⟨full_neighborhood.1 hs, hne⟩) hq' ht' hlq hlt hapart
  have heq : ((m.neighborhood p).set cubeMiddle false).componentCount =
      (m.neighborhood p).componentCount := by
    simpa [middleRemovable, hmiddle] using hcube
  omega

/-! ## The way around a voxel -/

/-- Along cells that are linked without the middle, grounded voxels and voxels below the ground
plane are followed by such. -/
theorem grounded_of_linked_cells (h : m.Consistent) (hp : m.Holds p)
    (hlinked : Linked ((m.neighborhood p).set cubeMiddle false).Full q t)
    (hq : (place p q).y < 0 ∨ (m.set p false).Grounded (place p q)) :
    (place p t).y < 0 ∨ (m.set p false).Grounded (place p t) := by
  refine hlinked.keeps (fun s => (place p s).y < 0 ∨ (m.set p false).Grounded (place p s)) hq
    fun s t _ hs htouch ht => ?_
  obtain ⟨⟨-, hsolid⟩, hne⟩ := full_neighborhood_set.1 ht
  have htouch : (place p s).Touches (place p t) := touches_place.2 htouch
  rcases hsolid with hbelow | hfull
  · exact Or.inl hbelow
  · have hfull' : (m.set p false).Full (place p t) :=
      (full_set_iff h hp).2 ⟨hfull, fun heq => hne (place_eq_iff.1 heq)⟩
    rcases hs with hbelow | hs
    · have hground : (place p t).y = 0 := by
        have hinside := hfull.holds
        rw [Position.touches_iff] at htouch
        simp only [Holds, Position.Inside] at hinside
        omega
      exact Or.inr (.of_ground hground hfull')
    · exact Or.inr (hs.step htouch hfull')

theorem grounded_neighbor (h : m.Consistent) (hp : m.Full p)
    (hcube : (m.neighborhood p).middleRemovable) (hpq : p.Touches q)
    (hq : q.y < 0 ∨ m.Full q ∧ (m.set p false).Grounded q) (hpt : p.Touches t) (ht : m.Full t) :
    (m.set p false).Grounded t := by
  have hlinked := linked_of_middleRemovable hp hcube hpq (hq.imp_right And.left) hpt (Or.inr ht)
  have := grounded_of_linked_cells h hp.holds hlinked (by
    rw [place_cell]
    exact hq.imp_right And.right)
  rw [place_cell] at this
  refine this.resolve_left fun hbelow => ?_
  have hinside := ht.holds
  simp only [Holds, Position.Inside] at hinside
  omega

/-- A voxel that the neighborhood calls removable takes no other one off the ground. -/
theorem grounded_of_middleRemovable (h : m.Consistent) (hp : m.Full p)
    (hcube : (m.neighborhood p).middleRemovable) (hq : m.Grounded q) (hne : q ≠ p) :
    (m.set p false).Grounded q := by
  have hkept : ∀ t, m.Full t → t ≠ p → (m.set p false).Full t := fun t ht hne =>
    (full_set_iff h hp.holds).2 ⟨ht, hne⟩
  obtain ⟨g, hg, hlinked⟩ := hq
  -- where a chain comes to `p` itself, its next voxel is what has to be grounded
  suffices hall : (q ≠ p → (m.set p false).Grounded q) ∧
      (q = p → ∀ t, p.Touches t → m.Full t → (m.set p false).Grounded t) from hall.1 hne
  clear hne
  induction hlinked with
  | refl hfull =>
    refine ⟨fun hne => Grounded.of_ground hg (hkept g hfull hne), ?_⟩
    rintro rfl t htouch ht
    have hbelow : g.Touches (g + Displacement.along .y (-1)) := by
      rw [Position.Touches, Position.add_sub_self]
      decide
    exact grounded_neighbor h hp hcube hbelow (Or.inl (by simp [hg, Displacement.along])) htouch ht
  | @step s t _ htouch ht ih =>
    constructor
    · intro hne
      by_cases hsp : s = p
      · exact ih.2 hsp t (hsp ▸ htouch) ht
      · exact (ih.1 hsp).step htouch (hkept t ht hne)
    · rintro rfl u hu hfull
      have hs := ih.1 htouch.ne
      have hfull' := ((full_set_iff h hp.holds).1 hs.full).1
      exact grounded_neighbor h hp hcube htouch.symm (Or.inr ⟨hfull', hs⟩) hu hfull

/-! ## Counting -/

theorem grounded_mono {m' : Matrix} (hsub : ∀ q, m'.Full q → m.Full q) (hq : m'.Grounded q) :
    m.Grounded q := by
  obtain ⟨g, hg, hlinked⟩ := hq
  exact ⟨g, hg, hlinked.mono hsub⟩

theorem grounded_of_not_grounded (h : m.Consistent) (hp : m.Full p) (hfloats : ¬m.Grounded p)
    (hq : m.Grounded q) : (m.set p false).Grounded q := by
  obtain ⟨g, hg, hlinked⟩ := hq
  have hkept : ∀ t, m.Grounded t → (m.set p false).Full t := fun t ht =>
    (full_set_iff h hp.holds).2 ⟨ht.full, fun heq => hfloats (heq ▸ ht)⟩
  have hground : m.Grounded g := .of_ground hg hlinked.left
  have hboth : m.Grounded q ∧ (m.set p false).Grounded q := by
    refine hlinked.keeps (fun t => m.Grounded t ∧ (m.set p false).Grounded t)
      ⟨hground, .of_ground hg (hkept g hground)⟩ fun s t _ hs htouch ht => ?_
    have hmt := hs.1.step htouch ht
    exact ⟨hmt, hs.2.step htouch (hkept t hmt)⟩
  exact hboth.2

theorem grounded_subset_erase (h : m.Consistent) (hp : m.Holds p) :
    (m.set p false).grounded.toList ⊆ m.grounded.toList.erase p := by
  intro q hq
  have hq := (mem_grounded (h.set p false)).1 (Array.mem_toList_iff.1 hq)
  have hne := ((full_set_iff h hp).1 hq.full).2
  refine (List.mem_erase_of_ne hne).2 (Array.mem_toList_iff.2 ((mem_grounded h).2 ?_))
  exact grounded_mono (fun t ht => ((full_set_iff h hp).1 ht).1) hq

theorem groundedCount_set_le (h : m.Consistent) (hp : m.Holds p) :
    (m.set p false).groundedCount ≤ m.groundedCount := by
  have hsub := List.subperm_of_subset (nodup_grounded (m.set p false)) (grounded_subset_erase h hp)
  exact Nat.le_trans hsub.length_le List.length_erase_le

/-- The counts differ by one at most when only the voxel itself is missing. -/
theorem groundedCount_le_iff (h : m.Consistent) (hp : m.Full p) :
    m.groundedCount - (m.set p false).groundedCount ≤ 1 ↔
      ∀ q, q ≠ p → m.Grounded q → (m.set p false).Grounded q := by
  have hnodup := nodup_grounded (m.set p false)
  have hmem : ∀ q, q ∈ (m.set p false).grounded.toList ↔ (m.set p false).Grounded q := fun q => by
    rw [Array.mem_toList_iff, mem_grounded (h.set p false)]
  constructor
  · intro hcount q hne hq
    by_cases hgrounded : m.Grounded p
    · have hlength : (m.grounded.toList.erase p).length + 1 = m.groundedCount :=
        List.length_erase_add_one (Array.mem_toList_iff.2 ((mem_grounded h).2 hgrounded))
      have hperm := (List.subperm_of_subset hnodup
        (grounded_subset_erase h hp.holds)).perm_of_length_le
          (by simp only [groundedCount] at *; simp only [Array.length_toList]; omega)
      rw [← hmem, hperm.mem_iff, List.mem_erase_of_ne hne, Array.mem_toList_iff, mem_grounded h]
      exact hq
    · exact grounded_of_not_grounded h hp hgrounded hq
  · intro hkept
    have hsub : m.grounded.toList.erase p ⊆ (m.set p false).grounded.toList := fun q hq => by
      obtain ⟨hne, hq⟩ := (nodup_grounded m).mem_erase_iff.1 hq
      rw [Array.mem_toList_iff, mem_grounded h] at hq
      exact (hmem q).2 (hkept q hne hq)
    have hlength := (List.subperm_of_subset ((nodup_grounded m).erase p) hsub).length_le
    have herase := List.le_length_erase (a := p) (l := m.grounded.toList)
    simp only [Array.length_toList, groundedCount] at *
    omega

/-! ## The test -/

theorem matrix_recount (h : m.Consistent) (hp : m.Full p) : (m.recount p).matrix = m := by
  have hset := h.set p false
  refine (hset.set p true).ext h (by simp) fun q => ?_
  rw [hset.get_set (holds_set.2 hp.holds), h.get_set hp.holds]
  split
  · next heq => rw [← heq, hp]
  · rfl

/-- The test passes just when every other voxel that is grounded remains so without this one. The
matrix comes back as it was, and the second count takes no more away than the first has given. -/
theorem safeToChange_iff_grounded (h : m.Consistent) (hp : m.Holds p) :
    ∃ safe, m.safeToChange p = .ok (safe, m) ∧
      (safe = true ↔ ∀ q, q ≠ p → m.Grounded q → (m.set p false).Grounded q) ∧
      (m.recount p).after ≤ (m.recount p).before := by
  simp only [safeToChange, if_pos hp, removable]
  split
  · next hfast =>
    refine ⟨true, rfl, iff_of_true rfl fun q hne hq => ?_, groundedCount_set_le h hp⟩
    simp only [Bool.or_eq_true, Bool.not_eq_true'] at hfast
    rcases hfast with hvoid | hcube
    · rwa [set_eq_self hvoid]
    · cases hfull : m.get p with
      | false => rwa [set_eq_self hfull]
      | true => exact grounded_of_middleRemovable h hfull hcube hq hne
  · next hslow =>
    have hfull : m.Full p := by
      cases hget : m.get p with
      | false => simp [hget] at hslow
      | true => exact hget
    refine ⟨_, by rw [matrix_recount h hfull], ?_, groundedCount_set_le h hp⟩
    rw [decide_eq_true_iff]
    exact groundedCount_le_iff h hfull

def tower : Matrix := (empty 3).setAll [⟨1, 0, 1⟩, ⟨1, 1, 1⟩] true

theorem safeToChange_tower : tower.Consistent ∧ tower.Holds ⟨1, 0, 1⟩ ∧
    tower.safeToChange ⟨1, 0, 1⟩ = .ok (false, tower) ∧
    ∃ q, q ≠ ⟨1, 0, 1⟩ ∧ tower.Grounded q ∧ ¬(tower.set ⟨1, 0, 1⟩ false).Grounded q := by
  have hconsistent : tower.Consistent := (Consistent.empty 3).setAll ..
  have hholds : tower.Holds ⟨1, 0, 1⟩ := by decide +kernel
  have hunsafe : tower.safeToChange ⟨1, 0, 1⟩ = .ok (false, tower) := by decide +kernel
  obtain ⟨safe, hsafe, hiff, -⟩ := safeToChange_iff_grounded hconsistent hholds
  refine ⟨hconsistent, hholds, hunsafe, ?_⟩
  by_contra! hkept
  have heq := hsafe.symm.trans hunsafe
  rw [hiff.2 hkept] at heq
  cases heq

end VoxelSwarm.Matrix
