import VoxelSwarm.Navigation.Moves
import VoxelSwarm.Proofs.Geometry.Along
import VoxelSwarm.Proofs.Geometry.Boxes
import VoxelSwarm.Proofs.Geometry.Links

/-!
# The moves of one bot

`Matrix.Move` says which straight and bent moves lead through void voxels. `Matrix.moves` lists the
displacements of all of them that lead elsewhere (`mem_moves_of_move`), and `moveCommand?` finds a
command for each displacement listed (`exists_move`). Moves reach what a chain of void voxels does:
no move leaves the chain (`Move.linked`), and to a neighbor there is one (`mem_moves_of_touches`).

Linear displacements are written as `along axis v` here, since a path along an axis is an interval
of integers.
-/

namespace VoxelSwarm

open Displacement

/-! ## Legs -/

namespace Displacement

variable {d : Displacement} {a b : Axis} {v w : Int}

theorem legs_of_two (hab : a ≠ b) (hv : v ≠ 0) (hw : w ≠ 0) :
    (along a v + along b w).legs = [along a v, along b w] ∨
      (along a v + along b w).legs = [along b w, along a v] := by
  cases a <;> cases b <;>
    simp_all [legs, Axis.all, along, component, zero]

theorem add_of_legs {d₁ d₂ : Displacement} (h : d.legs = [d₁, d₂]) : d₁ + d₂ = d := by
  obtain ⟨dx, dy, dz⟩ := d
  by_cases hx : dx = 0 <;> by_cases hy : dy = 0 <;> by_cases hz : dz = 0 <;>
    simp [legs, Axis.all, along, component, zero, hx, hy, hz] at h
  all_goals
    obtain ⟨rfl, rfl⟩ := h
    ext <;> simp [hx, hy, hz]

end Displacement

theorem mem_straightPath_along {p q : Position} {a : Axis} {v : Int} :
    q ∈ straightPath p (along a v) ↔
      ∃ c, (0 ≤ c ∧ c ≤ v ∨ v ≤ c ∧ c ≤ 0) ∧ q = p + along a c := by
  rw [mem_straightPath, mlen_along]
  constructor
  · rintro ⟨k, hk, rfl⟩
    refine ⟨v.sign * k, ?_, by rw [sign_scale_along]⟩
    rcases Int.lt_trichotomy v 0 with hv | rfl | hv
    · rw [Int.sign_eq_neg_one_of_neg hv]
      omega
    · simp
    · rw [Int.sign_eq_one_of_pos hv]
      omega
  · rintro ⟨c, hc, rfl⟩
    refine ⟨c.natAbs, by omega, ?_⟩
    rw [sign_scale_along]
    rcases Int.lt_trichotomy v 0 with hv | rfl | hv
    · rw [Int.sign_eq_neg_one_of_neg hv]
      congr 2
      omega
    · congr 2
      simp
      omega
    · rw [Int.sign_eq_one_of_pos hv]
      congr 2
      omega

namespace Matrix

/-- The voxel is inside the grid and void. -/
abbrev Void (m : Matrix) (p : Position) : Prop := m.isVoid p = true

/-- A command that moves a bot from `p` through void voxels, both ends included. -/
inductive Move (m : Matrix) (p : Position) : Command → Position → Prop
  | straight {d : Displacement} : d.LongLinear → (∀ q ∈ straightPath p d, m.Void q) →
      Move m p (.smove d) (p + d)
  | bent {d e : Displacement} : d.ShortLinear → e.ShortLinear → (∀ q ∈ bentPath p d e, m.Void q) →
      Move m p (.lmove d e) (p + (d + e))

/-- Commands that move a bot from one voxel to another, one after the other. -/
inductive Moves (m : Matrix) : Position → List Command → Position → Prop
  | nil (p : Position) : Moves m p [] p
  | cons {p q t : Position} {c : Command} {cs : List Command} :
      m.Move p c q → Moves m q cs t → Moves m p (c :: cs) t

variable {m : Matrix} {p q : Position} {d e : Displacement} {c : Command}

theorem Void.holds (h : m.Void p) : m.Holds p := by
  simp only [Void, isVoid, Bool.and_eq_true, decide_eq_true_eq] at h
  exact h.1

/-! ## Clear paths -/

theorem clearPath_iff (hp : m.Void p) : m.clearPath p d ↔ ∀ q ∈ straightPath p d, m.Void q := by
  rw [clearPath, straightPath_eq_cons, List.tail_cons, List.all_eq_true, List.forall_mem_cons]
  exact (and_iff_right hp).symm

theorem clearPath_iff_scale :
    m.clearPath p d ↔ ∀ k : Nat, 0 < k → k ≤ d.mlen → m.Void (p + d.sign.scale k) := by
  rw [clearPath, List.all_eq_true, straightPath, List.range_succ_eq_map, List.map_cons,
    List.tail_cons, List.map_map]
  simp only [List.mem_map, List.mem_range, Function.comp_apply]
  constructor
  · intro h k hk hle
    exact h _ ⟨k - 1, by omega, by congr 3; omega⟩
  · rintro h _ ⟨k, hk, rfl⟩
    exact h (k + 1) (by omega) (by omega)

theorem void_of_clearPath (hd : d.Linear) (h : m.clearPath p d) : m.Void (p + d) := by
  obtain ⟨a, v, hv, rfl⟩ := linear_iff_along.1 hd
  have := clearPath_iff_scale.1 h (along a v).mlen (by rw [mlen_along]; omega) (Nat.le_refl _)
  rwa [hd.sign_scale] at this

theorem bentPath_void_iff (hp : m.Void p) (hd : d.Linear) :
    (∀ q ∈ bentPath p d e, m.Void q) ↔ m.clearPath p d ∧ m.clearPath (p + d) e := by
  simp only [mem_bentPath hd, or_imp, forall_and]
  rw [clearPath_iff hp]
  refine and_congr_right fun hfirst => ?_
  rw [clearPath_iff (hfirst _ (stop_mem_straightPath p hd))]

/-! ## What is listed -/

theorem mem_ray {face : Displacement} {i n : Nat} :
    d ∈ m.ray p face i n ↔ ∃ k : Nat, i < k ∧ k ≤ i + n ∧ d = face.scale k ∧
      ∀ j : Nat, i < j → j ≤ k → m.Void (p + face.scale j) := by
  induction n generalizing i with
  | zero =>
    simp only [ray, List.not_mem_nil, false_iff]
    rintro ⟨k, hlt, hle, -⟩
    omega
  | succ n ih =>
    have hcast : ((i : Int) + 1) = ((i + 1 : Nat) : Int) := by omega
    simp only [ray, hcast]
    split
    · next hvoid =>
      rw [List.mem_cons, ih]
      constructor
      · rintro (rfl | ⟨k, hlt, hle, rfl, hall⟩)
        · refine ⟨i + 1, by omega, by omega, rfl, fun j hj hle => ?_⟩
          obtain rfl : j = i + 1 := by omega
          exact hvoid
        · refine ⟨k, by omega, by omega, rfl, fun j hj hle => ?_⟩
          rcases Nat.lt_or_eq_of_le hj with hj | rfl
          · exact hall j hj hle
          · exact hvoid
      · rintro ⟨k, hlt, hle, rfl, hall⟩
        rcases Nat.lt_or_eq_of_le hlt with hlt | rfl
        · exact Or.inr ⟨k, hlt, by omega, rfl, fun j hj hle => hall j (by omega) hle⟩
        · exact Or.inl rfl
    · next hstop =>
      simp only [List.not_mem_nil, false_iff]
      rintro ⟨k, hlt, hle, -, hall⟩
      exact hstop (hall (i + 1) (by omega) (by omega))

theorem mem_linearOffsets {n : Nat} :
    d ∈ m.linearOffsets p n ↔ (d.Linear ∧ d.mlen ≤ n) ∧ m.clearPath p d := by
  simp only [linearOffsets, List.mem_flatMap, mem_ray]
  constructor
  · rintro ⟨face, hface, k, hk, hle, rfl, hall⟩
    have hscaled : (face.scale k).Linear ∧ (face.scale k).mlen = k ∧
        (face.scale k).sign = face := by
      have hsign : (k : Int).sign = 1 := Int.sign_eq_one_of_pos (by omega)
      simp only [faces, List.mem_cons, List.not_mem_nil, or_false] at hface
      rcases hface with rfl | rfl | rfl | rfl | rfl | rfl <;>
        simp [scale, Linear, dimension, mlen, Displacement.sign, hsign] <;> omega
    obtain ⟨hlinear, hmlen, hsign⟩ := hscaled
    refine ⟨⟨hlinear, by omega⟩, clearPath_iff_scale.2 fun j hj hle => ?_⟩
    rw [hsign]
    exact hall j (by omega) (by omega)
  · rintro ⟨⟨hlinear, hle⟩, hclear⟩
    obtain ⟨a, v, hv, rfl⟩ := linear_iff_along.1 hlinear
    refine ⟨(along a v).sign, ?_, (along a v).mlen, ?_, by omega, hlinear.sign_scale.symm, ?_⟩
    · rcases Int.lt_or_gt_of_ne hv with hv | hv
      · cases a <;> simp [faces, along, Displacement.sign, Int.sign_eq_neg_one_of_neg hv]
      · cases a <;> simp [faces, along, Displacement.sign, Int.sign_eq_one_of_pos hv]
    · rw [mlen_along]
      omega
    · exact clearPath_iff_scale.1 hclear

theorem mem_cornerOffsets {x : Displacement} :
    x ∈ m.cornerOffsets p ↔ ∃ d e, (d.ShortLinear ∧ m.clearPath p d) ∧
      (e.ShortLinear ∧ m.clearPath (p + d) e) ∧ d.axis? ≠ e.axis? ∧ x = d + e := by
  simp only [cornerOffsets, List.mem_flatMap, List.mem_map, List.mem_filter, mem_linearOffsets,
    ShortLinear, decide_eq_true_eq]
  constructor
  · rintro ⟨d, hd, e, ⟨he, hne⟩, rfl⟩
    exact ⟨d, e, hd, he, hne, rfl⟩
  · rintro ⟨d, e, hd, he, hne, rfl⟩
    exact ⟨d, hd, e, ⟨he, hne⟩, rfl⟩

theorem mem_moves : d ∈ m.moves p ↔ d.LongLinear ∧ m.clearPath p d ∨ d ∈ m.cornerOffsets p := by
  rw [moves, List.mem_append, mem_linearOffsets, LongLinear]

theorem void_of_mem_moves (h : d ∈ m.moves p) : m.Void (p + d) := by
  rcases mem_moves.1 h with ⟨hd, hclear⟩ | hcorner
  · exact void_of_clearPath hd.1 hclear
  · obtain ⟨d, e, -, ⟨he, hclear⟩, -, rfl⟩ := mem_cornerOffsets.1 hcorner
    rw [← Position.add_add]
    exact void_of_clearPath he.1 hclear

/-! ## A command for what is listed -/

theorem bentCommand?_eq_some (hp : m.Void p) (h : m.bentCommand? p d e = some c) :
    m.Move p c (p + (d + e)) := by
  unfold bentCommand? at h
  split at h
  · next hlegs =>
    obtain ⟨hd, he, hfirst, hsecond⟩ := hlegs
    cases h
    exact .bent hd he ((bentPath_void_iff hp hd.1).2 ⟨hfirst, hsecond⟩)
  · cases h

theorem move_of_moveCommand? (hp : m.Void p) (h : m.moveCommand? p q = some c) : m.Move p c q := by
  have hq : p + (q - p) = q := Position.add_sub_cancel p q
  simp only [moveCommand?] at h
  split at h
  · next hstraight =>
    cases h
    have := Move.straight hstraight.1 ((clearPath_iff hp).1 hstraight.2)
    rwa [hq] at this
  · split at h
    · next a b hlegs =>
      have hsum : p + (a + b) = q := by rw [add_of_legs hlegs, hq]
      rcases hfirst : m.bentCommand? p a b with _ | first
      · rw [hfirst] at h
        have := bentCommand?_eq_some hp h
        rwa [add_comm, hsum] at this
      · rw [hfirst] at h
        cases h
        exact hsum ▸ bentCommand?_eq_some hp hfirst
    · cases h

theorem exists_move (hp : m.Void p) (h : q - p ∈ m.moves p) :
    ∃ c, m.moveCommand? p q = some c ∧ m.Move p c q := by
  suffices hsome : ∃ c, m.moveCommand? p q = some c by
    obtain ⟨c, hc⟩ := hsome
    exact ⟨c, hc, move_of_moveCommand? hp hc⟩
  simp only [moveCommand?]
  split
  · exact ⟨_, rfl⟩
  · next hbent =>
    rcases mem_moves.1 h with hstraight | hcorner
    · exact absurd hstraight hbent
    obtain ⟨d, e, ⟨hd, hfirst⟩, ⟨he, hsecond⟩, haxes, hsum⟩ := mem_cornerOffsets.1 hcorner
    have hcommand : m.bentCommand? p d e = some (.lmove d e) := if_pos ⟨hd, he, hfirst, hsecond⟩
    obtain ⟨a, v, hv, rfl⟩ := linear_iff_along.1 hd.1
    obtain ⟨b, w, hw, rfl⟩ := linear_iff_along.1 he.1
    rw [axis?_along hv, axis?_along hw] at haxes
    have hab : a ≠ b := fun heq => haxes (congrArg some heq)
    rw [hsum]
    rcases legs_of_two hab hv hw with hlegs | hlegs
    · rw [hlegs]
      simp only [hcommand]
      exact ⟨_, rfl⟩
    · rw [hlegs]
      simp only [hcommand]
      cases m.bentCommand? p (along b w) (along a v) with
      | none => exact ⟨_, rfl⟩
      | some c => exact ⟨_, rfl⟩

/-! ## Nothing is left out -/

theorem straight_of_two_legs {a : Axis} {v w : Int} (hv : (along a v).ShortLinear)
    (hw : (along a w).ShortLinear) (hpath : ∀ q ∈ bentPath p (along a v) (along a w), m.Void q) :
    v + w = 0 ∨ (along a (v + w)).LongLinear ∧
      ∀ q ∈ straightPath p (along a (v + w)), m.Void q := by
  by_cases hzero : v + w = 0
  · exact Or.inl hzero
  refine Or.inr ⟨⟨linear_iff_along.2 ⟨a, _, hzero, rfl⟩, ?_⟩, fun q hq => hpath q ?_⟩
  · have := hv.2
    have := hw.2
    simp only [mlen_along, shortDistance, longDistance] at *
    omega
  · rw [mem_bentPath hv.1, mem_straightPath_along, mem_straightPath_along]
    obtain ⟨c, hc, rfl⟩ := mem_straightPath_along.1 hq
    by_cases hfirst : 0 ≤ c ∧ c ≤ v ∨ v ≤ c ∧ c ≤ 0
    · exact Or.inl ⟨c, hfirst, rfl⟩
    · refine Or.inr ⟨c - v, by omega, ?_⟩
      rw [Position.add_add, along_add]
      congr 2
      omega

/-- Every move that leads elsewhere is listed. -/
theorem mem_moves_of_move (hp : m.Void p) (h : m.Move p c q) : q = p ∨ q - p ∈ m.moves p := by
  cases h with
  | @straight d hd hpath =>
    rw [Position.add_sub_self, mem_moves, clearPath_iff hp]
    exact Or.inr (Or.inl ⟨hd, hpath⟩)
  | @bent d e hd he hpath =>
    rw [Position.add_sub_self]
    obtain ⟨a, v, hv, rfl⟩ := linear_iff_along.1 hd.1
    obtain ⟨b, w, hw, rfl⟩ := linear_iff_along.1 he.1
    by_cases hab : a = b
    · subst hab
      rw [along_add]
      rcases straight_of_two_legs hd he hpath with hzero | hstraight
      · refine Or.inl ?_
        rw [hzero, along_zero]
        ext <;> simp [zero]
      · rw [mem_moves, clearPath_iff hp]
        exact Or.inr (Or.inl hstraight)
    · obtain ⟨hfirst, hsecond⟩ := (bentPath_void_iff hp hd.1).1 hpath
      refine Or.inr (mem_moves.2 (Or.inr (mem_cornerOffsets.2
        ⟨_, _, ⟨hd, hfirst⟩, ⟨he, hsecond⟩, ?_, rfl⟩)))
      rw [axis?_along hv, axis?_along hw]
      exact fun heq => hab (Option.some.inj heq)

/-! ## Moves and chains of void voxels -/

theorem touches_add_along {a : Axis} {v w : Int} :
    (p + along a v).Touches (p + along a w) ↔ (w - v).natAbs = 1 := by
  rw [Position.touches_iff]
  cases a with
  | x | y | z =>
    simp only [Position.add_x, Position.add_y, Position.add_z, along]
    omega

theorem linked_of_straightPath (hd : d.Linear) (hpath : ∀ q ∈ straightPath p d, m.Void q) :
    Linked m.Void p (p + d) := by
  have hall : ∀ k : Nat, k ≤ d.mlen → Linked m.Void p (p + d.sign.scale k) := by
    intro k
    induction k with
    | zero =>
      intro _
      have hzero : p + d.sign.scale ((0 : Nat) : Int) = p := by ext <;> simp [scale]
      rw [hzero]
      exact .refl (hpath p (start_mem_straightPath p d))
    | succ k ih =>
      intro hk
      refine .step (ih (by omega)) ?_ (hpath _ (mem_straightPath.2 ⟨k + 1, hk, rfl⟩))
      obtain ⟨a, v, hv, rfl⟩ := linear_iff_along.1 hd
      rw [sign_scale_along, sign_scale_along, touches_add_along, ← Int.mul_sub]
      rcases Int.lt_or_gt_of_ne hv with hneg | hpos
      · rw [Int.sign_eq_neg_one_of_neg hneg]
        omega
      · rw [Int.sign_eq_one_of_pos hpos]
        omega
  have := hall d.mlen (Nat.le_refl _)
  rwa [hd.sign_scale] at this

theorem Move.linked (h : m.Move p c q) : Linked m.Void p q := by
  cases h with
  | straight hd hpath => exact linked_of_straightPath hd.1 hpath
  | @bent d e hd he hpath =>
    have hfirst := linked_of_straightPath hd.1
      fun q hq => hpath q ((mem_bentPath hd.1).2 (Or.inl hq))
    have hsecond := linked_of_straightPath he.1
      fun q hq => hpath q ((mem_bentPath hd.1).2 (Or.inr hq))
    rw [← Position.add_add]
    exact hfirst.trans hsecond

theorem mem_moves_of_touches (htouch : p.Touches q) (hq : m.Void q) : q - p ∈ m.moves p := by
  have hlinear : (q - p).Linear := by
    have hface := Position.mem_faces.2 htouch
    revert hface
    generalize q - p = d
    revert d
    decide
  have hmlen : (q - p).mlen = 1 := htouch
  refine mem_moves.2 (Or.inl ⟨⟨hlinear, by rw [hmlen]; decide⟩, clearPath_iff_scale.2 ?_⟩)
  intro k hk hle
  obtain rfl : k = (q - p).mlen := by omega
  rw [hlinear.sign_scale, Position.add_sub_cancel]
  exact hq

theorem Moves.linked {cs : List Command} (h : m.Moves p cs q) (hp : m.Void p) :
    Linked m.Void p q := by
  induction h with
  | nil => exact .refl hp
  | cons hmove _ ih => exact hmove.linked.trans (ih hmove.linked.right)

theorem Moves.foldl_offset? {cs : List Command} (h : m.Moves p cs q) :
    (cs.filterMap Command.offset?).foldl (· + ·) p = q := by
  induction h with
  | nil => rfl
  | cons hmove _ ih => cases hmove <;> exact ih

end Matrix

end VoxelSwarm
