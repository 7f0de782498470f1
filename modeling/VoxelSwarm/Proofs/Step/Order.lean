import VoxelSwarm.Proofs.Step.Advance

/-!
# The order of the turns

A legal plan may be carried out in any order: `Midway` leaves one state only for the bots that have
had their turns (`Midway.unique`), so every order ends in the state that the ascending one ends in,
and finds the matrix changed when that one does.
-/

namespace VoxelSwarm

namespace State

variable {s t t' : State} {rules : Rules} {plan : Plan} {done done' l : List Bot} {base : Int}
  {changed changed' : Bool} {ids : List BotId}

namespace Midway

theorem bots_unique (hmid : Midway s plan base done t changed)
    (hmid' : Midway s plan base done' t' changed') (hperm : done.Perm done') :
    t.bots = t'.bots := by
  apply hmid.seated.bots_ext hmid'.seated
  intro k
  -- a slot is as somebody's turn leaves it or as it was before the step, and neither asks when
  by_cases hk : ∃ b ∈ done, ∃ x ∈ s.rewritten plan b, x.id = k
  · obtain ⟨b, hb, x, hx, rfl⟩ := hk
    rw [hmid.rewritten b hb x hx, hmid'.rewritten b (hperm.mem_iff.1 hb) x hx]
  · push Not at hk
    rw [hmid.kept k hk, hmid'.kept k fun b hb => hk b (hperm.mem_iff.2 hb)]

theorem matrix_unique (hmid : Midway s plan base done t changed)
    (hmid' : Midway s plan base done' t' changed') (hperm : done.Perm done') :
    t.matrix = t'.matrix := by
  apply hmid.consistent.ext hmid'.consistent (hmid.resolution.trans hmid'.resolution.symm)
  intro p
  by_cases hp : ∃ b ∈ done, ∃ e, s.editOf plan b = some e ∧ p ∈ e.voxels
  · obtain ⟨b, hb, e, he, hp⟩ := hp
    rw [hmid.written b hb e he p hp, hmid'.written b (hperm.mem_iff.1 hb) e he p hp]
  · push Not at hp
    rw [hmid.unwritten p hp, hmid'.unwritten p fun b hb => hp b (hperm.mem_iff.2 hb)]

/-- Which bots have had their turns, not in which order, decides what the state is. -/
theorem unique (hmid : Midway s plan base done t changed)
    (hmid' : Midway s plan base done' t' changed') (hperm : done.Perm done') :
    t = t' ∧ changed = changed' := by
  have hmatrix := hmid.matrix_unique hmid' hperm
  have htarget := hmid.target.trans hmid'.target.symm
  have hbots := hmid.bots_unique hmid' hperm
  have henergy : t.energy = t'.energy := by
    rw [hmid.energy, hmid'.energy, (hperm.map _).sum_eq]
  have hharmonics : t.harmonics = t'.harmonics := by
    rw [hmid.harmonics, hmid'.harmonics, hperm.countP_eq]
  have hhalted : t.halted = t'.halted := by
    rw [Bool.eq_iff_iff, hmid.halted, hmid'.halted]
    simp only [hperm.mem_iff]
  have hchanged : changed = changed' := by
    rw [Bool.eq_iff_iff, hmid.changed, hmid'.changed]
    simp only [hperm.mem_iff]
  refine ⟨?_, hchanged⟩
  cases t
  cases t'
  simp_all

end Midway

theorem exists_perm_of_ids (hperm : ids.Perm s.activeIds) :
    ∃ l : List Bot, l.Perm s.activeBots ∧ l.map (·.id) = ids := by
  have hcomp : Relation.Comp (· = List.map (fun b : Bot => b.id) ·) List.Perm ids s.activeBots := by
    rw [List.eq_map_comp_perm]
    exact hperm
  obtain ⟨l, hl, hperm⟩ := hcomp
  exact ⟨l, hperm, hl.symm⟩

/-- Once a plan has passed the checks, the order in which it is carried out makes no difference. -/
theorem executeAll_perm (h : s.Coherent) (hm : s.matrix.Consistent) (hcovers : plan.Covers s)
    (hok : s.checkPlan rules plan s.activeIds = .ok ()) (hperm : ids.Perm s.activeIds) :
    s.executeAll plan ids = s.executeAll plan s.activeIds := by
  have hl := (checkPlan_eq_ok_iff h.toSeated hcovers).1 hok
  obtain ⟨l, hbots, rfl⟩ := exists_perm_of_ids hperm
  have hmid := hl.midway_executeAll h hm hbots
  rw [hbots.length_eq] at hmid
  have hascending := hl.midway_executeAll h hm (List.Perm.refl s.activeBots)
  obtain ⟨hstate, hchanged⟩ := hmid.unique hascending hbots
  exact Prod.ext hstate hchanged

/-- The splitting bot and the filling one may have their turns first, the absorbed one before the
absorbing one. -/
theorem executeAll_crew_reversed :
    crew.executeAll crewPlan [⟨4⟩, ⟨3⟩, ⟨2⟩, ⟨1⟩] = crew.executeAll crewPlan crew.activeIds :=
  executeAll_perm crew_coherent (Matrix.Consistent.empty 3)
    crew_covers crew_checkPlan (by decide +kernel)

end State

end VoxelSwarm
