import VoxelSwarm.Proofs.Step.Outcome
import VoxelSwarm.Proofs.Step.Runs

/-!
# The energy ledger

What a step charges is stored in matter and bots, or spent: on the field and the bots for being
there, on moves, and on writing voxels that had the wanted value already (`Completes.ledger`). The
stored part telescopes over a run, so the energy of a run is told by its ends and by what its steps
spend (`Run.ledger`). The field takes its part in every step; a bot is there to be charged for as
long as the run has not halted (`Run.presences_ge`).
-/

namespace VoxelSwarm

def Edit.asking (value : Bool) (e : Edit) : List Position :=
  if e.value = value then e.voxels else []

namespace State

def movement : Option Command → Int
  | some (.smove lld) => 2 * (lld.mlen : Int)
  | some (.lmove sld₁ sld₂) => 2 * ((sld₁.mlen : Int) + 2 + sld₂.mlen)
  | _ => 0

def travelled (s : State) (plan : Plan) : Int :=
  (s.activeBots.map fun b => movement (plan.command? b.id)).sum

/-- The number of bots that a plan halts. -/
def halting (s : State) (plan : Plan) : Nat :=
  s.activeBots.countP fun b => plan.command? b.id = some .halt

/-- The voxels that the commands of a plan ask to have `value`, those of a group's box once for each
of its members. -/
def addressed (s : State) (plan : Plan) (value : Bool) : List Position :=
  s.activeBots.flatMap fun b =>
    (((plan.command? b.id).bind (Command.addressed b.position)).map (Edit.asking value)).getD []

/-- The number of different voxels that have the value already that a plan asks for. -/
def repeats (s : State) (plan : Plan) (value : Bool) : Nat :=
  (s.addressed plan value).dedup.countP fun p => s.matrix.get p = value

/-- The voxels that the turn of a bot writes. -/
def writtenBy (s : State) (plan : Plan) (b : Bot) : List Position :=
  ((s.editOf plan b).map (·.voxels)).getD []

def givenBy (s : State) (plan : Plan) (value : Bool) (b : Bot) : List Position :=
  ((s.editOf plan b).map (Edit.asking value)).getD []

variable {s t : State} {rules : Rules} {plan : Plan} {report : StepReport} {b b' : Bot}
  {p : Position} {value : Bool} {base : Int} {changed : Bool} {rounds : List (State × Plan)}

/-! ## Voxels that are written -/

theorem mem_asking {e : Edit} : p ∈ e.asking value ↔ e.value = value ∧ p ∈ e.voxels := by
  rw [Edit.asking]
  split <;> simp [*]

theorem mem_givenBy : p ∈ s.givenBy plan value b ↔
    ∃ e, s.editOf plan b = some e ∧ e.value = value ∧ p ∈ e.voxels := by
  rw [givenBy]
  cases s.editOf plan b <;> simp [mem_asking]

theorem mem_writtenBy : p ∈ s.writtenBy plan b ↔
    ∃ e, s.editOf plan b = some e ∧ p ∈ e.voxels := by
  rw [writtenBy]
  cases s.editOf plan b <;> simp

theorem mem_addressed : p ∈ s.addressed plan value ↔ s.Addresses plan value p := by
  rw [addressed, List.mem_flatMap]
  refine exists_congr fun b => and_congr_right fun _ => ?_
  cases plan.command? b.id with
  | none => simp
  | some c =>
    simp only [Option.bind_some, Option.some.injEq, exists_eq_left']
    cases c.addressed b.position <;> simp [mem_asking]

theorem nodup_editOf (hs : s.Seated) (hb : b ∈ s.activeBots) {e : Edit}
    (he : s.editOf plan b = some e) : e.voxels.Nodup := by
  obtain ⟨_, _, haddr, -⟩ := (editOf_eq_some_iff hs hb).1 he
  exact nodup_addressed haddr

namespace Legal

theorem nodup_flatMap (hl : s.Legal rules plan) (hs : s.Seated) {f : Bot → List Position}
    (hnodup : ∀ b ∈ s.activeBots, (f b).Nodup)
    (hsub : ∀ b ∈ s.activeBots, ∀ p ∈ f b, p ∈ s.writtenBy plan b) :
    (s.activeBots.flatMap f).Nodup := by
  refine List.nodup_flatMap.2 ⟨hnodup, ?_⟩
  refine hs.nodup_activeBots.pairwise_of_forall_ne fun b hb b' hb' hne => ?_
  intro p hp hp'
  obtain ⟨e, he, hmem⟩ := mem_writtenBy.1 (hsub b hb p hp)
  obtain ⟨e', he', hmem'⟩ := mem_writtenBy.1 (hsub b' hb' p hp')
  have hclaimed := edit_subset_claimed hs hb he p hmem
  exact hl.not_mem_edit hs hb hb' hne hclaimed he' hmem'

theorem nodup_written (hl : s.Legal rules plan) (hs : s.Seated) :
    (s.activeBots.flatMap (s.writtenBy plan)).Nodup := by
  refine hl.nodup_flatMap hs (fun b hb => ?_) fun b _ p hp => hp
  rw [writtenBy]
  cases he : s.editOf plan b with
  | none => exact List.nodup_nil
  | some e => exact nodup_editOf hs hb he

theorem given_perm (hl : s.Legal rules plan) (hs : s.Seated) (value : Bool) :
    (s.activeBots.flatMap (s.givenBy plan value)).Perm (s.addressed plan value).dedup := by
  have hnodup : (s.activeBots.flatMap (s.givenBy plan value)).Nodup := by
    refine hl.nodup_flatMap hs (fun b hb => ?_) fun b _ p hp => ?_
    · rw [givenBy]
      cases he : s.editOf plan b with
      | none => exact List.nodup_nil
      | some e =>
        rw [Option.map_some, Option.getD_some, Edit.asking]
        split
        · exact nodup_editOf hs hb he
        · exact List.nodup_nil
    · obtain ⟨e, he, -, hmem⟩ := mem_givenBy.1 hp
      exact mem_writtenBy.2 ⟨e, he, hmem⟩
  -- neither list has a voxel twice, so it is enough that they have the same ones
  refine (List.perm_ext_iff_of_nodup hnodup (List.nodup_dedup _)).2 fun p => ?_
  rw [List.mem_dedup, mem_addressed, addresses_iff hs, List.mem_flatMap]
  exact exists_congr fun b => and_congr_right fun _ => mem_givenBy

theorem repeats_eq (hl : s.Legal rules plan) (hs : s.Seated) (value : Bool) :
    s.repeats plan value =
      (s.activeBots.flatMap (s.givenBy plan value)).countP fun p => s.matrix.get p = value := by
  rw [repeats, (hl.given_perm hs value).countP_eq]

end Legal

/-! ## What writing costs -/

/-- Writing stores twelve in a voxel that it fills and takes twelve out of one that it voids. What
changes nothing costs six or three. -/
theorem write_eq (value full : Bool) :
    Energy.write value full = 12 * ((value.toNat : Int) - full.toNat) +
      (if value then 6 else 3) * ((if full = value then 1 else 0 : Nat) : Int) := by
  cases value <;> cases full <;> rfl

/-- What the turn of a bot costs for the voxels that it writes. -/
def writingOf (s : State) (plan : Plan) (b : Bot) : Int :=
  ((s.editOf plan b).map (·.cost s.matrix)).getD 0

theorem sum_write (m : Matrix) (value : Bool) (ps : List Position) :
    (ps.map fun p => Energy.write value (m.get p)).sum =
      12 * (ps.map fun p => (value.toNat : Int) - (m.get p).toNat).sum +
      (if value then 6 else 3) * (ps.countP fun p => m.get p = value : Nat) := by
  induction ps with
  | nil => simp
  | cons p ps ih =>
    rw [List.map_cons, List.sum_cons, ih, write_eq, List.map_cons, List.sum_cons, List.countP_cons]
    simp only [decide_eq_true_eq, Int.natCast_add, Int.mul_add]
    omega

theorem Midway.writingOf_eq (hmid : Midway s plan base s.activeBots t changed)
    (hb : b ∈ s.activeBots) :
    s.writingOf plan b =
      12 * ((s.writtenBy plan b).map fun p => ((t.matrix.get p).toNat : Int) -
        (s.matrix.get p).toNat).sum +
      6 * ((s.givenBy plan true b).countP fun p => s.matrix.get p = true : Nat) +
      3 * ((s.givenBy plan false b).countP fun p => s.matrix.get p = false : Nat) := by
  rw [writingOf, writtenBy, givenBy, givenBy]
  cases he : s.editOf plan b with
  | none => simp
  | some e =>
    have hget : (e.voxels.map fun p => ((t.matrix.get p).toNat : Int) - (s.matrix.get p).toNat) =
        e.voxels.map fun p => (e.value.toNat : Int) - (s.matrix.get p).toNat :=
      List.map_congr_left fun p hp => by rw [hmid.written b hb e he p hp]
    simp only [Option.map_some, Option.getD_some, Edit.cost, sum_write, hget, Edit.asking]
    cases e.value <;> simp

theorem Midway.sum_writingOf (hmid : Midway s plan base s.activeBots t changed)
    (hl : s.Legal rules plan) (h : s.Coherent) (hm : s.matrix.Consistent) :
    (s.activeBots.map (s.writingOf plan)).sum =
      12 * ((t.matrix.fullCount : Int) - s.matrix.fullCount) + 6 * (s.repeats plan true : Int) +
        3 * (s.repeats plan false : Int) := by
  have hcount := hm.fullCount_eq hmid.consistent hmid.resolution (hl.nodup_written h.toSeated)
    (fun p hp => ?_) fun p hp => ?_
  · have hsum : ∀ l : List Bot, (∀ b ∈ l, b ∈ s.activeBots) →
        (l.map (s.writingOf plan)).sum =
          12 * ((l.flatMap (s.writtenBy plan)).map fun p => ((t.matrix.get p).toNat : Int) -
            (s.matrix.get p).toNat).sum +
          6 * ((l.flatMap (s.givenBy plan true)).countP fun p => s.matrix.get p = true : Nat) +
          3 * ((l.flatMap (s.givenBy plan false)).countP
            fun p => s.matrix.get p = false : Nat) := by
      intro l hl
      induction l with
      | nil => simp
      | cons b l ih =>
        rw [List.map_cons, List.sum_cons, ih fun b hb => hl b (List.mem_cons_of_mem _ hb),
          hmid.writingOf_eq (hl b List.mem_cons_self)]
        simp only [List.flatMap_cons, List.map_append, List.sum_append, List.countP_append,
          Int.natCast_add]
        omega
    rw [hsum _ fun _ hb => hb, hl.repeats_eq h.toSeated, hl.repeats_eq h.toSeated, hcount]
    omega
  · obtain ⟨b, hb, hp⟩ := List.mem_flatMap.1 hp
    obtain ⟨e, he, hp⟩ := mem_writtenBy.1 hp
    exact hl.holds_edit h.toSeated hb he p hp
  · refine hmid.unwritten p fun b hb e he hmem => hp ?_
    exact List.mem_flatMap.2 ⟨b, hb, mem_writtenBy.2 ⟨e, he, hmem⟩⟩

/-! ## A step -/

theorem costOf_eq :
    s.costOf plan b =
      movement (plan.command? b.id) + 24 * grown plan b + s.writingOf plan b := by
  rw [costOf, grown, writingOf, editOf]
  cases plan.command? b.id with
  | none => rfl
  | some c => cases c <;> rfl

theorem sum_costOf (l : List Bot) :
    (l.map (s.costOf plan)).sum =
      (l.map fun b => movement (plan.command? b.id)).sum + 24 * (l.map (grown plan)).sum +
        (l.map (s.writingOf plan)).sum := by
  induction l with
  | nil => rfl
  | cons b l ih =>
    simp only [List.map_cons, List.sum_cons, ih, costOf_eq]
    omega

namespace Completes

theorem resolution (hc : s.Completes rules plan report t) (h : s.Coherent)
    (hm : s.matrix.Consistent) : t.resolution = s.resolution :=
  (hc.midway h hm).resolution

/-- What a step that succeeds charges. -/
theorem ledger (hc : s.Completes rules plan report t) (h : s.Coherent)
    (hm : s.matrix.Consistent) :
    t.energy - s.energy =
      20 * (s.activeCount : Int) + (s.resolution : Int) ^ 3 *
          (if s.harmonics = .high then 30 else 3) +
        12 * ((t.matrix.fullCount : Int) - s.matrix.fullCount) +
        24 * ((t.activeCount : Int) + s.halting plan - s.activeCount) +
        s.travelled plan + 6 * (s.repeats plan true : Int) + 3 * (s.repeats plan false : Int) := by
  have hmid := hc.midway h hm
  have hl := hc.legal h.toSeated
  have hcount := hmid.activeCount_eq hl h
  have hwriting := hmid.sum_writingOf hl h hm
  have hfield : (Matrix.volume s.resolution : Int) * s.harmonics.costPerVoxel =
      (s.resolution : Int) ^ 3 * (if s.harmonics = .high then 30 else 3) := by
    rw [Matrix.volume]
    push_cast
    cases s.harmonics <;> simp [Harmonics.costPerVoxel, pow_succ]
  have henergy := hmid.energy
  rw [Energy.passive, Energy.perBot, hfield, sum_costOf, ← travelled, hwriting] at henergy
  rw [← halting] at hcount
  omega

end Completes

/-! ## A run -/

/-- What the steps of a run cost for the field and for the bots that are there. -/
def presences (rounds : List (State × Plan)) : Int :=
  (rounds.map fun r => 20 * (r.1.activeCount : Int) + (r.1.resolution : Int) ^ 3 *
    (if r.1.harmonics = .high then 30 else 3)).sum

def haltings (rounds : List (State × Plan)) : Int :=
  (rounds.map fun r => (r.1.halting r.2 : Int)).sum

def travels (rounds : List (State × Plan)) : Int := (rounds.map fun r => r.1.travelled r.2).sum

/-- What a run spends on writing what is there already. -/
def rewritings (rounds : List (State × Plan)) : Int :=
  (rounds.map fun r => 6 * (r.1.repeats r.2 true : Int) + 3 * (r.1.repeats r.2 false : Int)).sum

theorem Run.ledger (hrun : Run rules s rounds t) (h : s.Coherent) (hm : s.matrix.Consistent) :
    t.energy - s.energy =
      presences rounds + 12 * ((t.matrix.fullCount : Int) - s.matrix.fullCount) +
        24 * ((t.activeCount : Int) + haltings rounds - s.activeCount) + travels rounds +
        rewritings rounds := by
  induction hrun with
  | nil => simp [presences, haltings, travels, rewritings]
  | cons first _ ih =>
    have hstep := first.ledger h hm
    have hrest := ih (first.coherent h hm) (first.consistent h hm)
    simp only [presences, haltings, travels, rewritings, List.map_cons, List.sum_cons] at *
    omega

/-! ## What a run costs at least -/

theorem movement_nonneg (c : Option Command) : 0 ≤ movement c := by
  unfold movement
  split
  · exact Int.mul_nonneg (by decide) (Int.natCast_nonneg _)
  · exact Int.mul_nonneg (by decide) (by omega)
  · exact Int.le_refl 0

theorem travelled_nonneg : 0 ≤ s.travelled plan := by
  refine List.sum_nonneg fun x hx => ?_
  obtain ⟨b, -, rfl⟩ := List.mem_map.1 hx
  exact movement_nonneg _

theorem travels_nonneg : 0 ≤ travels rounds := by
  refine List.sum_nonneg fun x hx => ?_
  obtain ⟨r, -, rfl⟩ := List.mem_map.1 hx
  exact travelled_nonneg

theorem rewritings_nonneg : 0 ≤ rewritings rounds := by
  refine List.sum_nonneg fun x hx => ?_
  obtain ⟨r, -, rfl⟩ := List.mem_map.1 hx
  omega

theorem haltings_nonneg : 0 ≤ haltings rounds := by
  refine List.sum_nonneg fun x hx => ?_
  obtain ⟨r, -, rfl⟩ := List.mem_map.1 hx
  exact Int.natCast_nonneg _

namespace Run

theorem halted_iff (hrun : Run rules s rounds t) (h : s.Coherent) (hm : s.matrix.Consistent) :
    t.halted = true ↔ s.halted = true ∨ 0 < haltings rounds := by
  induction hrun with
  | nil => simp [haltings]
  | @cons s t u plan report rounds first _ ih =>
    have hhalts : (∃ b ∈ s.activeBots, plan.command? b.id = some .halt) ↔ 0 < s.halting plan := by
      simp [halting, List.countP_pos_iff]
    have hrest : 0 ≤ haltings rounds := haltings_nonneg
    have hsum : haltings ((s, plan) :: rounds) = s.halting plan + haltings rounds := by
      simp only [haltings, List.map_cons, List.sum_cons]
    rw [ih (first.coherent h hm) (first.consistent h hm), (first.midway h hm).halted, hhalts,
      or_assoc, hsum]
    exact or_congr_right (by omega)

theorem one_le_active (hrun : Run rules s rounds t) (h : s.Coherent) (hm : s.matrix.Consistent)
    (hrunning : s.halted = false) : 1 ≤ (t.activeCount : Int) + haltings rounds := by
  have hnonneg : 0 ≤ haltings rounds := haltings_nonneg
  have hcoherent := (hrun.coherent h hm).1
  by_cases hhalted : t.halted = true
  · rcases (hrun.halted_iff h hm).1 hhalted with hs | hpos
    · rw [hrunning] at hs
      cases hs
    · omega
  · have hpos : t.activeCount ≠ 0 := fun hzero =>
      hhalted (hcoherent.activity.2 (List.length_eq_zero_iff.1 hzero))
    omega

/-- Every step costs what the field takes, and while the swarm runs what a bot takes. -/
theorem presences_ge (hrun : Run rules s rounds t) (h : s.Coherent) (hm : s.matrix.Consistent) :
    20 * (rounds.countP fun r => r.1.halted = false : Nat) +
      3 * (s.resolution : Int) ^ 3 * (rounds.length : Int) ≤ presences rounds := by
  induction hrun with
  | nil => simp [presences]
  | @cons s t u plan report rounds first _ ih =>
    have hrest := ih (first.coherent h hm) (first.consistent h hm)
    rw [first.resolution h hm] at hrest
    have hfield : 3 * (s.resolution : Int) ^ 3 ≤
        (s.resolution : Int) ^ 3 * (if s.harmonics = .high then 30 else 3) := by
      have hcube : 0 ≤ (s.resolution : Int) ^ 3 := Int.pow_nonneg (Int.natCast_nonneg _)
      split <;> omega
    have hbots : (if s.halted = false then 1 else 0) ≤ s.activeCount := by
      split
      · next hrunning =>
        have hne : s.activeCount ≠ 0 := fun hzero => by
          have hhalted := h.activity.2 (List.length_eq_zero_iff.1 hzero)
          rw [hrunning] at hhalted
          cases hhalted
        omega
      · exact Nat.zero_le _
    have hlength : 3 * (s.resolution : Int) ^ 3 * ((rounds.length + 1 : Nat) : Int) =
        3 * (s.resolution : Int) ^ 3 * (rounds.length : Int) + 3 * (s.resolution : Int) ^ 3 := by
      rw [Int.natCast_add, Int.mul_add, Int.natCast_one, Int.mul_one]
    simp only [presences, List.map_cons, List.sum_cons, List.countP_cons, List.length_cons,
      decide_eq_true_eq] at *
    omega

end Run

/-- The energy of a run: what its steps cost for the field and the bots, what is stored in the
matter and in the bots that it has made, and what it spends on moves and on writing what is there
already. A run that starts with one bot and no matter spends on every step what the field takes, and
on every step that starts before it has halted what a bot takes as well. -/
theorem energy_of_run (h : s.Coherent) (hm : s.matrix.Consistent)
    (hrun : Run rules s rounds t) :
    t.energy - s.energy =
      presences rounds + 12 * ((t.matrix.fullCount : Int) - s.matrix.fullCount) +
        24 * ((t.activeCount : Int) + haltings rounds - s.activeCount) + travels rounds +
        rewritings rounds ∧
    (s.halted = false → s.matrix.fullCount = 0 → s.activeCount = 1 →
      20 * (rounds.countP fun r => r.1.halted = false : Nat) +
        3 * (s.resolution : Int) ^ 3 * (rounds.length : Int) ≤ t.energy - s.energy) := by
  refine ⟨hrun.ledger h hm, fun hrunning hempty hone => ?_⟩
  have hledger := hrun.ledger h hm
  have hactive := hrun.one_le_active h hm hrunning
  have hpresences := hrun.presences_ge h hm
  have htravels : 0 ≤ travels rounds := travels_nonneg
  have hrewritings : 0 ≤ rewritings rounds := rewritings_nonneg
  omega

/-! ## A run that goes on after it has halted -/

def lone : State :=
  (start (Matrix.empty 1) (Matrix.empty 1)).install ⟨BotId.first, Position.origin, [], true⟩

def lonePlan : Plan := Plan.empty.assign BotId.first .halt

def loneHalted : State := (lone.executeAll lonePlan lone.activeIds).1

theorem lone_checkWellFormed : lone.checkWellFormed = .ok () := by decide +kernel

theorem lone_completes : lone.Completes {} lonePlan ⟨1, 23, true⟩ loneHalted := by
  have hseated := (checkWellFormed_eq_ok_iff.1 lone_checkWellFormed).1.toSeated
  have hread : readPlan lone.activeIds Plan.empty (CommandList.ofList [.halt]) =
      (.ok lonePlan, ⟨[], 1⟩) := by
    decide +kernel
  refine ⟨covers_of_readPlan hseated hread, resolveStep_eq_ok_iff.2 ⟨?_, rfl, ?_, ?_⟩⟩
  · rw [checkPlan, seq_eq_ok_iff, checkFootprints_eq_ok_iff hseated]
    constructor
    · decide +kernel
    · decide +kernel
  · exact fun _ => by decide +kernel
  · decide +kernel

theorem loneHalted_completes :
    loneHalted.Completes {} Plan.empty ⟨0, 3, true⟩
      (loneHalted.executeAll Plan.empty loneHalted.activeIds).1 := by
  have hids : loneHalted.activeIds = [] := by decide +kernel
  refine ⟨fun id => by simp [hids, Plan.command?_empty], resolveStep_eq_ok_iff.2 ⟨?_, rfl, ?_, ?_⟩⟩
  · rw [hids]
    rfl
  · exact fun _ => by decide +kernel
  · decide +kernel

theorem lone_run : Run {} lone [(lone, lonePlan), (loneHalted, Plan.empty)]
    (loneHalted.executeAll Plan.empty loneHalted.activeIds).1 :=
  .cons lone_completes (.cons loneHalted_completes (.nil _))

/-- The step in which the bot halts is charged for the bot, the one after it for the field only. -/
theorem energy_of_lone_run :
    20 * (1 : Int) + 3 * (1 : Int) ^ 3 * 2 ≤
      (loneHalted.executeAll Plan.empty loneHalted.activeIds).1.energy - lone.energy := by
  have hbound := (energy_of_run (checkWellFormed_eq_ok_iff.1 lone_checkWellFormed).1
    (Matrix.Consistent.empty 1) lone_run).2 (by decide +kernel) (by decide +kernel)
    (by decide +kernel)
  have hrunning : [(lone, lonePlan), (loneHalted, Plan.empty)].countP
      (fun r => r.1.halted = false) = 1 := by
    decide +kernel
  rw [hrunning] at hbound
  exact hbound

/-- A bot is not charged for in every step, because steps may be taken after it has halted. -/
theorem not_charged_after_halt :
    ¬∀ (rules : Rules) (s t : State) (rounds : List (State × Plan)), s.Coherent →
      s.matrix.Consistent → Run rules s rounds t → s.halted = false → s.matrix.fullCount = 0 →
      s.activeCount = 1 →
      (20 + 3 * (s.resolution : Int) ^ 3) * (rounds.length : Int) ≤ t.energy - s.energy := by
  intro hbound
  have hlone := hbound {} lone _ _ (checkWellFormed_eq_ok_iff.1 lone_checkWellFormed).1
    (Matrix.Consistent.empty 1) lone_run (by decide +kernel) (by decide +kernel) (by decide +kernel)
  revert hlone
  decide +kernel

end State

end VoxelSwarm
