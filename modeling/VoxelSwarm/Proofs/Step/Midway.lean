import Mathlib.Data.List.TakeWhile
import VoxelSwarm.Proofs.Matrix.Consistent
import VoxelSwarm.Proofs.Step.Turn

/-!
# Halfway through a step

The commands are carried out one after another, each on the state that the earlier ones have left.
`Midway` says what that state is when the bots of `done` have had their turns: their slots and
voxels are as their turns leave them, and everything else is as before the step. What a later bot
looks up, its own slot, its partner's and the group it belongs to, is therefore what it was before
the step (`Midway.turned`), and one more turn leads to `Midway` again (`Midway.next`).
-/

namespace VoxelSwarm

namespace State

variable {s t : State} {rules : Rules} {plan : Plan} {b b' c : Bot} {done : List Bot} {base : Int}
  {changed : Bool}

/-! ## Writing voxels -/

theorem foldl_writeVoxel {ps : List Position} (value : Bool) (hm : t.matrix.Consistent)
    (hps : ∀ p ∈ ps, t.matrix.Holds p) (hnodup : ps.Nodup) (earlier : Bool) :
    ps.foldl (writeVoxel value) (t, earlier) =
      ({ t with
          matrix := t.matrix.setAll ps value
          energy := t.energy + (ps.map fun p => Energy.write value (t.matrix.get p)).sum },
        earlier || ps.any fun p => t.matrix.get p != value) := by
  induction ps generalizing t earlier with
  | nil => simp [Matrix.setAll]
  | cons p ps ih =>
    obtain ⟨hp, hnodup⟩ := List.nodup_cons.1 hnodup
    have hholds := hps p List.mem_cons_self
    -- writing a value that is there already changes nothing
    have hwrite : writeVoxel value (t, earlier) p =
        ({ t with
            matrix := t.matrix.set p value
            energy := t.energy + Energy.write value (t.matrix.get p) },
          earlier || t.matrix.get p != value) := by
      by_cases hfull : t.matrix.get p = value
      · simp [writeVoxel, hfull, charge, Matrix.set_eq_self hfull]
      · simp [writeVoxel, hfull, charge]
    have hsame : ∀ q ∈ ps, (t.matrix.set p value).get q = t.matrix.get q := by
      intro q hq
      have hne : p ≠ q := fun heq => hp (heq ▸ hq)
      rw [hm.get_set hholds, if_neg hne]
    rw [List.foldl_cons, hwrite, ih (hm.set p value)
      (fun q hq => Matrix.holds_set.2 (hps q (List.mem_cons_of_mem _ hq))) hnodup]
    have hcost : (ps.map fun q => Energy.write value ((t.matrix.set p value).get q)) =
        ps.map fun q => Energy.write value (t.matrix.get q) :=
      List.map_congr_left fun q hq => by rw [hsame q hq]
    have hany : (ps.any fun q => (t.matrix.set p value).get q != value) =
        ps.any fun q => t.matrix.get q != value := by
      rw [Bool.eq_iff_iff, List.any_eq_true, List.any_eq_true]
      exact exists_congr fun q => and_congr_right fun hq => by rw [hsame q hq]
    simp only [hcost, hany, Matrix.setAll, List.foldl_cons, List.map_cons, List.sum_cons,
      List.any_cons, Bool.or_assoc, Int.add_assoc]

theorem applyEdit_eq {e : Edit} (hm : t.matrix.Consistent)
    (hholds : ∀ p ∈ e.voxels, t.matrix.Holds p) (hnodup : e.voxels.Nodup) :
    t.applyEdit e =
      ({ t with
          matrix := t.matrix.setAll e.voxels e.value
          energy := t.energy + e.cost t.matrix },
        e.voxels.any fun p => t.matrix.get p != e.value) := by
  have hall : (e.voxels.takeWhile fun p => decide (t.matrix.Holds p)) = e.voxels :=
    List.takeWhile_eq_self_iff.2 fun p hp => decide_eq_true (hholds p hp)
  rw [applyEdit, hall, foldl_writeVoxel e.value hm hholds hnodup, Bool.false_or, Edit.cost]

/-! ## The state between two turns -/

/-- What the turn of `b` makes of the state `t`, told by the state `s` before the step. -/
structure Turned (s : State) (plan : Plan) (b : Bot) (t : State) (after : State × Bool) : Prop where
  seated : after.1.Seated
  rewritten : ∀ x ∈ s.rewritten plan b, after.1.bot? x.id = some x
  kept : ∀ k, (∀ x ∈ s.rewritten plan b, x.id ≠ k) → after.1.bot? k = t.bot? k
  target : after.1.target = t.target
  matrix : after.1.matrix =
    ((s.editOf plan b).map fun e => t.matrix.setAll e.voxels e.value).getD t.matrix
  changed : after.2 = true ↔
    ∃ e, s.editOf plan b = some e ∧ ∃ p ∈ e.voxels, s.matrix.get p ≠ e.value
  energy : after.1.energy = t.energy + s.costOf plan b
  harmonics : after.1.harmonics =
    if plan.command? b.id = some .flip then t.harmonics.flipped else t.harmonics
  halted : after.1.halted = true ↔ t.halted = true ∨ plan.command? b.id = some .halt

/-- The state when the bots of `done` have had their turns, told by the state `s` before the step.
The energy is counted from `base`. -/
structure Midway (s : State) (plan : Plan) (base : Int) (done : List Bot) (t : State)
    (changed : Bool) : Prop where
  seated : t.Seated
  rewritten : ∀ b ∈ done, ∀ x ∈ s.rewritten plan b, t.bot? x.id = some x
  kept : ∀ k, (∀ b ∈ done, ∀ x ∈ s.rewritten plan b, x.id ≠ k) → t.bot? k = s.bot? k
  target : t.target = s.target
  consistent : t.matrix.Consistent
  resolution : t.matrix.resolution = s.matrix.resolution
  written : ∀ b ∈ done, ∀ e, s.editOf plan b = some e →
    ∀ p ∈ e.voxels, t.matrix.get p = e.value
  unwritten : ∀ p, (∀ b ∈ done, ∀ e, s.editOf plan b = some e → p ∉ e.voxels) →
    t.matrix.get p = s.matrix.get p
  changed : changed = true ↔
    ∃ b ∈ done, ∃ e, s.editOf plan b = some e ∧ ∃ p ∈ e.voxels, s.matrix.get p ≠ e.value
  energy : t.energy = base + (done.map (s.costOf plan)).sum
  harmonics : t.harmonics =
    Harmonics.flipped^[done.countP fun b => plan.command? b.id = some .flip] s.harmonics
  halted : t.halted = true ↔
    s.halted = true ∨ ∃ b ∈ done, plan.command? b.id = some .halt

namespace Midway

theorem start (plan : Plan) (hs : s.Seated) (hm : s.matrix.Consistent) (amount : Int) :
    Midway s plan (s.energy + amount) [] (s.charge amount) false where
  seated := ⟨hs.size, hs.slot_id⟩
  rewritten := by simp
  kept _ _ := rfl
  target := rfl
  consistent := hm
  resolution := rfl
  written := by simp
  unwritten _ _ := rfl
  changed := by simp
  energy := by simp [charge]
  harmonics := rfl
  halted := by simp [charge]

end Midway

/-! ## Groups -/

/-- The entry of a slot in the list of a group's members. -/
def memberOf (plan : Plan) (kind : GroupKind) (g : Region) (b : Bot) : Option (BotId × Position) :=
  if b.active then do
    let (kind', nd, fd) ← (plan.command? b.id).bind Command.group?
    if kind' = kind ∧ groupRegion b.position nd fd = g then some (b.id, b.position + nd) else none
  else none

theorem groupMembers_eq_filterMap (kind : GroupKind) (g : Region) :
    plan.groupMembers s kind g = s.bots.toList.filterMap (memberOf plan kind g) := by
  rw [Plan.groupMembers, activeBots, List.filterMap_filter]
  rfl

theorem memberOf_eq_none {kind : GroupKind} {g : Region}
    (hb : (plan.command? b.id).bind Command.group? = none) : memberOf plan kind g b = none := by
  rw [memberOf, hb]
  split <;> rfl

theorem groupMembers_congr (hs : s.Seated) (ht : t.Seated)
    (hsame : ∀ k, (plan.command? k).bind Command.group? ≠ none → t.bot? k = s.bot? k)
    (kind : GroupKind) (g : Region) :
    plan.groupMembers t kind g = plan.groupMembers s kind g := by
  have hmap : t.bots.toList.map (memberOf plan kind g) =
      s.bots.toList.map (memberOf plan kind g) := by
    apply List.ext_getElem?
    intro i
    simp only [List.getElem?_map, Array.getElem?_toList]
    rcases Nat.lt_or_ge i botSlots with hi | hi
    · obtain ⟨x, hx, hidx⟩ := ht.exists_getElem? hi
      obtain ⟨y, hy, hidy⟩ := hs.exists_getElem? hi
      have hid : x.id = y.id := BotId.index_inj.1 (hidx.trans hidy.symm)
      rw [hx, hy, Option.map_some, Option.map_some]
      by_cases hgroup : (plan.command? y.id).bind Command.group? = none
      · rw [memberOf_eq_none hgroup, memberOf_eq_none (hid ▸ hgroup)]
      · have hslot := hsame _ hgroup
        rw [bot?, bot?, hidy, hx, hy] at hslot
        rw [Option.some.inj hslot]
    · rw [ht.getElem?_eq_none hi, hs.getElem?_eq_none hi]
  have hcompose (l : List Bot) : l.filterMap (memberOf plan kind g) =
      (l.map (memberOf plan kind g)).filterMap id := by
    rw [List.filterMap_map]
    rfl
  rw [groupMembers_eq_filterMap, groupMembers_eq_filterMap, hcompose, hcompose, hmap]

/-! ## What a later bot looks up -/

namespace Midway

section Later

variable (hmid : Midway s plan base done t changed) (hl : s.Legal rules plan) (h : s.Arranged)
  (hdone : ∀ b ∈ done, b ∈ s.activeBots)
include hmid hl h hdone

theorem bot?_eq {k : BotId} (hk : ∀ b ∈ done, ¬s.Owns plan b k) : t.bot? k = s.bot? k :=
  hmid.kept k fun b hb _ hx heq => hk b hb (heq ▸ hl.owns_of_mem_rewritten h (hdone b hb) hx)

theorem bot?_of_owns (hb : b ∈ s.activeBots) (hnew : b ∉ done) {k : BotId}
    (hk : s.Owns plan b k) : t.bot? k = s.bot? k :=
  hmid.bot?_eq hl h hdone fun _ hb' hk' => hnew (Owns.unique h (hdone _ hb') hb hk' hk ▸ hb')

theorem bot?_self (hb : b ∈ s.activeBots) (hnew : b ∉ done)
    (hstays : ∀ nd, plan.command? b.id ≠ some (.fusionS nd)) : t.bot? b.id = some b :=
  (hmid.bot?_of_owns hl h hdone hb hnew (.self rfl hstays)).trans (h.bot?_of_mem hb)

theorem bot?_partner (hb : b ∈ s.activeBots) (hnew : b ∉ done) (hc : c ∈ s.activeBots)
    (hpairs : plan.Pairs b c) : t.bot? c.id = some c :=
  (hmid.bot?_of_owns hl h hdone hb hnew (.partner c hc hpairs rfl)).trans (h.bot?_of_mem hc)

/-- A bot that is to be absorbed stays where it is, also when it has been. -/
theorem bot?_secondary (hc : c ∈ s.activeBots) {nd : Displacement}
    (hcmd : plan.command? c.id = some (.fusionS nd)) :
    t.bot? c.id = some c ∨ t.bot? c.id = some c.retire := by
  obtain ⟨-, b, hb, hpairs⟩ := hl.permits c hc _ hcmd
  by_cases hdone' : b ∈ done
  · have hretire := hl.retire_mem_rewritten h hb hc hpairs
    exact Or.inr (hmid.rewritten b hdone' c.retire hretire)
  · exact Or.inl (hmid.bot?_partner hl h hdone hb hdone' hc hpairs)

theorem positionOf_eq (hb : b ∈ s.activeBots) (hnew : b ∉ done) :
    t.positionOf b.id = b.position := by
  have hslot : t.bot? b.id = some b ∨ t.bot? b.id = some b.retire := by
    by_cases hsecondary : ∃ nd, plan.command? b.id = some (.fusionS nd)
    · obtain ⟨nd, hcmd⟩ := hsecondary
      exact hmid.bot?_secondary hl h hdone hb hcmd
    · exact Or.inl (hmid.bot?_self hl h hdone hb hnew (not_exists.1 hsecondary))
  rw [positionOf]
  rcases hslot with heq | heq
  · rw [heq]
    rfl
  · rw [heq]
    rfl

/-- An absorbing bot finds the partner that it had before the step. -/
theorem fusionPartner?_eq (hb : b ∈ s.activeBots) (hnew : b ∉ done) (hc : c ∈ s.activeBots)
    (hpairs : plan.Pairs b c) {nd : Displacement} (hpos : c.position = b.position + nd) :
    plan.fusionPartner? t b.position nd false = some c.id := by
  have hslot := hmid.bot?_partner hl h hdone hb hnew hc hpairs
  have hactive := (h.mem_activeBots.1 hc).2
  refine fusionPartner?_eq_some (hmid.seated.mem_of_bot? hslot hactive) hpos hpairs.2 ?_
  intro other hother hat hfuses
  obtain ⟨back, hback, -⟩ := hfuses
  obtain ⟨o, ho, hid⟩ := List.mem_map.1 ((hl.covers other.id).1 ⟨_, hback⟩)
  -- wherever the other bot is now, it stands where it stood
  have hstands : other.position = o.position := by
    have hslot' := hmid.seated.bot?_of_mem hother
    rw [← hid] at hslot' hback
    rcases hmid.bot?_secondary hl h hdone ho hback with heq | heq
    · rw [Option.some.inj (hslot'.symm.trans heq)]
    · rw [Option.some.inj (hslot'.symm.trans heq), Bot.retire]
  rw [← hid, h.eq_of_position_eq ho hc (hstands.symm.trans (hat.trans hpos.symm))]

theorem bot?_member {k : BotId} (hk : (plan.command? k).bind Command.group? ≠ none) :
    t.bot? k = s.bot? k := by
  cases hc : plan.command? k with
  | none => simp [hc] at hk
  | some c =>
    rw [hc, Option.bind_some] at hk
    obtain ⟨b, hb, rfl⟩ := List.mem_map.1 ((hl.covers k).1 ⟨c, hc⟩)
    have hstays : ∀ nd, plan.command? b.id ≠ some (.fusionS nd) := by
      intro nd heq
      obtain rfl : c = .fusionS nd := Option.some.inj (hc.symm.trans heq)
      exact hk rfl
    by_cases hnew : b ∈ done
    · have hrew : s.rewritten plan b = [b] := by
        cases c
        case gfill | gvoid => simp only [State.rewritten, hc]
        all_goals exact absurd rfl hk
      rw [hmid.rewritten b hnew b (by simp [hrew]), h.bot?_of_mem hb]
    · exact hmid.bot?_of_owns hl h hdone hb hnew (.self rfl hstays)

/-- Groups are what they were. -/
theorem groupMembers_eq (kind : GroupKind) (g : Region) :
    plan.groupMembers t kind g = plan.groupMembers s kind g :=
  groupMembers_congr h.toSeated hmid.seated (fun _ hk => hmid.bot?_member hl h hdone hk) kind g

theorem groupLeader?_eq (kind : GroupKind) (g : Region) :
    plan.groupLeader? t kind g = plan.groupLeader? s kind g := by
  rw [Plan.groupLeader?, hmid.groupMembers_eq hl h hdone, ← Plan.groupLeader?]

theorem edit?_eq (hb : b ∈ s.activeBots) (hnew : b ∉ done) {cmd : Command}
    (hc : plan.command? b.id = some cmd) : t.edit? plan b.id cmd = s.editOf plan b := by
  have hpos : t.positionOf b.id = s.positionOf b.id := by
    rw [hmid.positionOf_eq hl h hdone hb hnew, h.positionOf_eq hb]
  rw [editOf, hc, Option.bind_some]
  cases cmd <;> simp only [edit?, hmid.groupLeader?_eq hl h hdone, hpos]

theorem get_eq (hb : b ∈ s.activeBots) (hnew : b ∉ done) {p : Position}
    (hp : p ∈ s.claimed plan b.id) : t.matrix.get p = s.matrix.get p := by
  refine hmid.unwritten p fun b' hb' e he => ?_
  have hne : b ≠ b' := fun heq => hnew (heq ▸ hb')
  exact hl.not_mem_edit h.toSeated hb (hdone b' hb') hne hp he

end Later

end Midway

end State

end VoxelSwarm
