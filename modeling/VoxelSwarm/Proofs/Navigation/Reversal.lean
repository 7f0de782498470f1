import VoxelSwarm.Proofs.Navigation.MoveGraph
import VoxelSwarm.Proofs.Navigation.Nearest
import VoxelSwarm.Proofs.Navigation.Questions

/-!
# The way back

A move sweeps the same voxels in both directions, so it can be undone by one command
(`Matrix.Move.symm`), a bent one by its legs in reverse order. Sequences of moves can therefore be
undone by as many commands, and two voxels are as far apart from either side (`Matrix.Apart.symm`),
although the moves from a voxel are listed by walking outward from it and a search favors what it
finds first. `Navigator.routes_reversible` says it of the displacements and of the routes.
-/

namespace VoxelSwarm

open Displacement

variable {p q t : Position} {d e : Displacement}

/-! ## Paths -/

theorem Displacement.mlen_neg (d : Displacement) : (-d).mlen = d.mlen := by
  simp only [mlen, neg_dx, neg_dy, neg_dz, Int.natAbs_neg]

theorem Displacement.Linear.neg (h : d.Linear) : (-d).Linear := by
  obtain ⟨a, v, hv, rfl⟩ := linear_iff_along.1 h
  exact linear_iff_along.2 ⟨a, -v, Int.neg_ne_zero.2 hv, neg_along a v⟩

theorem Position.add_neg_cancel (p : Position) (d : Displacement) : p + d + -d = p := by
  ext <;> simp only [add_x, add_y, add_z, neg_dx, neg_dy, neg_dz] <;> omega

theorem mem_straightPath_neg (hd : d.Linear) :
    q ∈ straightPath (p + d) (-d) ↔ q ∈ straightPath p d := by
  obtain ⟨a, v, -, rfl⟩ := linear_iff_along.1 hd
  rw [neg_along, mem_straightPath_along, mem_straightPath_along]
  constructor
  · rintro ⟨c, hc, rfl⟩
    exact ⟨v + c, by omega, by rw [Position.add_add, along_add]⟩
  · rintro ⟨c, hc, rfl⟩
    refine ⟨c - v, by omega, ?_⟩
    rw [Position.add_add, along_add]
    congr 2
    omega

theorem mem_bentPath_neg (hd : d.Linear) (he : e.Linear) :
    q ∈ bentPath (p + (d + e)) (-e) (-d) ↔ q ∈ bentPath p d e := by
  rw [mem_bentPath he.neg, mem_bentPath hd, ← Position.add_add, Position.add_neg_cancel,
    mem_straightPath_neg he, mem_straightPath_neg hd, or_comm]

/-! ## Moves -/

namespace Matrix

variable {m : Matrix} {c : Command} {cs cs' : List Command} {k : Nat}

theorem Move.symm (h : m.Move p c q) : ∃ c', m.Move q c' p := by
  cases h with
  | @straight d hd hpath =>
    have hback : m.Move (p + d) (.smove (-d)) (p + d + -d) :=
      .straight ⟨hd.1.neg, (mlen_neg d).symm ▸ hd.2⟩
        fun q hq => hpath q ((mem_straightPath_neg hd.1).1 hq)
    rw [Position.add_neg_cancel] at hback
    exact ⟨_, hback⟩
  | @bent d e hd he hpath =>
    have hback : m.Move (p + (d + e)) (.lmove (-e) (-d)) (p + (d + e) + (-e + -d)) :=
      .bent ⟨he.1.neg, (mlen_neg e).symm ▸ he.2⟩ ⟨hd.1.neg, (mlen_neg d).symm ▸ hd.2⟩
        fun q hq => hpath q ((mem_bentPath_neg hd.1 he.1).1 hq)
    rw [← Position.add_add, ← Position.add_add, Position.add_neg_cancel,
      Position.add_neg_cancel] at hback
    exact ⟨_, Position.add_add p d e ▸ hback⟩

theorem Moves.trans (h : m.Moves p cs q) (h' : m.Moves q cs' t) : m.Moves p (cs ++ cs') t := by
  induction h with
  | nil => exact h'
  | cons hmove _ ih => exact .cons hmove (ih h')

theorem Moves.symm (h : m.Moves p cs q) : ∃ cs', m.Moves q cs' p ∧ cs'.length = cs.length := by
  induction h with
  | nil p => exact ⟨[], .nil p, rfl⟩
  | @cons p u q c cs hmove _ ih =>
    obtain ⟨back, hback, hlength⟩ := ih
    obtain ⟨c', hmove'⟩ := hmove.symm
    exact ⟨back ++ [c'], hback.trans (.cons hmove' (.nil p)), by simp [hlength]⟩

theorem Apart.symm (h : m.Apart p q k) : m.Apart q p k := by
  obtain ⟨cs, hcs, hlength⟩ := h.reached
  obtain ⟨back, hback, hsame⟩ := hcs.symm
  refine ⟨⟨back, hback, hsame.trans hlength⟩, fun cs hcs => ?_⟩
  obtain ⟨forth, hforth, hsame⟩ := hcs.symm
  exact hsame ▸ h.least forth hforth

theorem Apart.unique {k' : Nat} (h : m.Apart p q k) (h' : m.Apart p q k') : k = k' := by
  obtain ⟨cs, hcs, hlength⟩ := h.reached
  obtain ⟨cs', hcs', hlength'⟩ := h'.reached
  exact Nat.le_antisymm (hlength' ▸ h.least cs' hcs') (hlength ▸ h'.least cs hcs)

theorem mem_moveOffsets_symm (hp : m.Void p) (hq : m.Void q) (h : q - p ∈ m.moveOffsets p) :
    p - q ∈ m.moveOffsets q := by
  rw [mem_moveOffsets] at h ⊢
  obtain ⟨c, -, hmove⟩ := exists_move hp h
  obtain ⟨c', hback⟩ := hmove.symm
  rcases mem_moves_of_move hq hback with rfl | hlisted
  · exact h
  · exact hlisted

end Matrix

/-! ## Routes -/

namespace Navigator

open VoxelSwarm.Matrix (pillar)

variable {m : Matrix}

theorem length_routeToNearest_eq_some_iff (n : Navigator) (hr : m.resolution ≤ 250)
    (hp : m.Void p) {k : Nat} :
    (n.routeToNearest m p [q]).1.map (·.commands.length) = some k ↔ m.Apart p q k := by
  rcases n.routeToNearest_cases hr hp [q] with ⟨route, hroute, hshortest⟩ | ⟨hnone, hall⟩
  · have hdestination : route.destination = q := by
      have hgoal := (List.mem_filter.1 (List.contains_iff_mem.1 hshortest.goal)).1
      simpa using hgoal
    have hlegal := hdestination ▸ hshortest.legal
    have hnearest := nearest_of_shortest hshortest hp
    have hapart : m.Apart p q route.commands.length :=
      ⟨⟨_, hlegal, rfl⟩, fun cs hcs => hnearest.least q (by simp) cs hcs⟩
    rw [hroute]
    constructor
    · intro h
      exact Option.some.inj h ▸ hapart
    · intro h
      exact congrArg some (hapart.unique h)
  · rw [hnone]
    refine iff_of_false nofun fun h => ?_
    obtain ⟨cs, hcs, -⟩ := h.reached
    exact hall q (hcs.linked hp) List.mem_cons_self

/-- Between two void voxels, a displacement is listed at one end just when the reverse is listed at
the other. Searches from either end for the other one both find nothing, or they find routes of as
many commands. -/
theorem routes_reversible (n n' : Navigator) (hr : m.resolution ≤ 250) (hp : m.Void p)
    (hq : m.Void q) :
    (q - p ∈ m.moveOffsets p ↔ p - q ∈ m.moveOffsets q) ∧
      (n.routeToNearest m p [q]).1.map (·.commands.length) =
        (n'.routeToNearest m q [p]).1.map (·.commands.length) := by
  refine ⟨⟨Matrix.mem_moveOffsets_symm hp hq, Matrix.mem_moveOffsets_symm hq hp⟩, ?_⟩
  refine Option.ext fun k => ?_
  rw [n.length_routeToNearest_eq_some_iff hr hp, n'.length_routeToNearest_eq_some_iff hr hq]
  exact ⟨Matrix.Apart.symm, Matrix.Apart.symm⟩

theorem routes_reversible_pillar :
    pillar.resolution ≤ 250 ∧ pillar.Void ⟨0, 1, 2⟩ ∧ pillar.Void ⟨1, 2, 2⟩ ∧
      ⟨-1, -1, 0⟩ ∈ pillar.moveOffsets ⟨1, 2, 2⟩ ∧
      ∃ route route', (used.routeToNearest pillar ⟨0, 1, 2⟩ [⟨1, 2, 2⟩]).1 = some route ∧
        (routeToNearest {} pillar ⟨1, 2, 2⟩ [⟨0, 1, 2⟩]).1 = some route' ∧
        route.commands.length = route'.commands.length := by
  have hr : pillar.resolution ≤ 250 := by decide +kernel
  have hp : pillar.Void ⟨0, 1, 2⟩ := by decide +kernel
  have hq : pillar.Void ⟨1, 2, 2⟩ := by decide +kernel
  have hcommand : pillar.moveCommand? ⟨0, 1, 2⟩ ⟨1, 2, 2⟩ =
      some (.lmove ⟨0, 1, 0⟩ ⟨1, 0, 0⟩) := by decide +kernel
  have hmove := Matrix.move_of_moveCommand? hp hcommand
  have hlisted : (⟨1, 2, 2⟩ : Position) - (⟨0, 1, 2⟩ : Position) ∈
      pillar.moveOffsets ⟨0, 1, 2⟩ := by
    rcases Matrix.mem_moves_of_move hp hmove with heq | hlisted
    · exact absurd heq (by decide)
    · exact Matrix.mem_moveOffsets.2 hlisted
  obtain ⟨hsymm, hlength⟩ := routes_reversible used {} hr hp hq
  refine ⟨hr, hp, hq, hsymm.1 hlisted, ?_⟩
  rcases used.routeToNearest_cases hr hp [⟨1, 2, 2⟩] with ⟨route, hroute, -⟩ | ⟨-, hall⟩
  · rw [hroute] at hlength
    obtain ⟨route', hroute', hsame⟩ := Option.map_eq_some_iff.1 hlength.symm
    exact ⟨route, route', hroute, hroute', hsame.symm⟩
  · exact absurd List.mem_cons_self (hall _ hmove.linked)

end Navigator

end VoxelSwarm
