import VoxelSwarm.Proofs.Step.Atomic
import VoxelSwarm.Proofs.Swarm.Guarded

/-!
# Guarded steps

The checks of a step look at a voxel only after they have found it inside the grid, so no guard
reports whatever the plan is (`checkPlan_eq`). Carrying out a command asks for nothing first. What
has to hold for it is that the command does not come to a mishap in the state that it finds
(`execute_eq`), which is the state that the earlier bots have left. A command of a legal plan does
not (`Midway.mishap?_eq_none`): its voxels are inside the grid and its bot holds its seeds before
the step, and the turns of the earlier bots have not changed that. So a step never makes a guard
report (`resolveStep_eq`, `runStep_eq`), also when a bot stands in matter or the grid has no voxel.
-/

namespace VoxelSwarm

namespace State

variable {s t : State} {rules : Rules} {plan : Plan} {b : Bot} {done : List Bot} {base : Int}
  {changed : Bool} {id : BotId} {c : Command}

theorem mishap?_eq_none_iff : t.mishap? plan id c = none ↔
    (∀ e, t.edit? plan id c = some e → ∀ p ∈ e.voxels, t.matrix.Holds p) ∧
      ∀ nd m b, c = .fission nd m → t.bot? id = some b → m.toNat < b.seeds.length := by
  have hstray : (t.strayVoxel? plan id c).map Mishap.strayVoxel = none ↔
      ∀ e, t.edit? plan id c = some e → ∀ p ∈ e.voxels, t.matrix.Holds p := by
    rw [Option.map_eq_none_iff, strayVoxel?]
    cases t.edit? plan id c with
    | none => simp
    | some e => simp [← Option.eq_none_iff_forall_ne_some]
  have hshort : t.seedShortage? id c = none ↔
      ∀ nd m b, c = .fission nd m → t.bot? id = some b → m.toNat < b.seeds.length := by
    cases c
    case fission nd m =>
      simp only [seedShortage?]
      cases t.bot? id with
      | none => simp
      | some b => simp
    all_goals simp [seedShortage?]
  rw [mishap?, ← hstray, ← hshort]
  cases (t.strayVoxel? plan id c).map Mishap.strayVoxel <;> simp

/-- No command of a legal plan comes to a mishap, whoever has had a turn before. -/
theorem Midway.mishap?_eq_none (hmid : Midway s plan base done t changed)
    (hl : s.Legal rules plan) (h : s.Arranged) (hdone : ∀ b ∈ done, b ∈ s.activeBots)
    (hb : b ∈ s.activeBots) (hnew : b ∉ done) (hc : plan.command? b.id = some c) :
    t.mishap? plan b.id c = none := by
  refine mishap?_eq_none_iff.2 ⟨fun e he p hp => ?_, ?_⟩
  · rw [hmid.edit?_eq hl h hdone hb hnew hc] at he
    have hin := hl.holds_edit h.toSeated hb he p hp
    rwa [Matrix.Holds, hmid.resolution]
  · rintro nd m b' rfl hslot
    rw [hmid.bot?_self hl h hdone hb hnew (by simp [hc])] at hslot
    obtain rfl := Option.some.inj hslot
    exact (hl.permits b hb _ hc).2

end State

namespace Guarded

/-! ## Checks of a step -/

def checkVoid (s : State) (p : Position) : Checked PreconditionError Unit := do
  if ¬s.matrix.Holds p then plain (.error (.outOfBounds p))
  else if ← ExceptT.lift (get s.matrix p) then plain (.error (.blocked p))
  else plain (.ok ())

def checkPath (s : State) : List Position → Checked PreconditionError Unit
  | [] => plain (.ok ())
  | p :: rest => do
    checkVoid s p
    checkPath s rest

def checkFission (s : State) (id : BotId) (target : Position) (m : Nat) :
    Checked PreconditionError Unit := do
  checkVoid s target
  let available := ((s.bot? id).map (·.seeds.length)).getD 0
  if available < m + 1 then plain (.error (.insufficientSeeds (m + 1) available))
  else plain (.ok ())

/-- What a command requires of the bot and the state. Only moves and spawning look at voxels. -/
def checkAlone (s : State) (rules : Rules) (id : BotId) (c : Command) :
    Checked PreconditionError Unit :=
  let position := s.positionOf id
  match c with
  | .smove lld => checkPath s (straightPath position lld)
  | .lmove sld₁ sld₂ => do
    checkPath s (straightPath position sld₁)
    checkPath s (straightPath (position + sld₁) sld₂)
  | .fission nd m => checkFission s id (position + nd) m.toNat
  | c => plain (s.checkAlone rules id c)

def checkPrecondition (s : State) (rules : Rules) (plan : Plan) (id : BotId) (c : Command) :
    Checked PreconditionError Unit := do
  checkAlone s rules id c
  plain (s.checkTogether plan id c)

def checkBot (s : State) (rules : Rules) (plan : Plan) (id : BotId) : Checked StepError Unit :=
  match plan.command? id with
  | none => plain (.error (.missingCommand id))
  | some c => do
    plain (c.check.mapError (.invalidCommand id))
    (checkPrecondition s rules plan id c).adapt (.precondition id c)

def checkBots (s : State) (rules : Rules) (plan : Plan) : List BotId → Checked StepError Unit
  | [] => plain (.ok ())
  | id :: rest => do
    checkBot s rules plan id
    checkBots s rules plan rest

def checkPlan (s : State) (rules : Rules) (plan : Plan) (ids : List BotId) :
    Checked StepError Unit := do
  checkBots s rules plan ids
  plain (s.checkFootprints plan ids)

/-! ## Carrying out -/

def writeVoxel (value : Bool) : State × Bool → Position → Except Fault (State × Bool)
  | (s, earlier), p => do
    let full ← get s.matrix p
    let charged := s.charge (Energy.write value full)
    if full = value then return (charged, earlier)
    else return ({ charged with matrix := ← set charged.matrix p value }, true)

def applyEdit (s : State) (edit : Edit) : Except Fault (State × Bool) :=
  edit.voxels.foldlM (writeVoxel edit.value) (s, false)

/-- Splits off the first `m + 1` seeds of a bot, which has to hold that many. -/
def handOver (b : Bot) (m : Nat) : Except Fault (BotId × List BotId × Bot) :=
  if b.seeds.length < m + 1 then .error (.mishap (.seedShortage (m + 1) b.seeds.length))
  else
    match b.seeds.take (m + 1) with
    | [] => .error (.pastEnd 0 0)
    | child :: handed => .ok (child, handed, { b with seeds := b.seeds.drop (m + 1) })

def spawn (s : State) (id : BotId) (target : Position) (m : Nat) : Except Fault State :=
  match s.bot? id with
  | none => .ok s
  | some b => do
    let (child, seeds, parent) ← handOver b m
    return ((s.updateBot id fun _ => parent).install (Bot.activeAt child target seeds)).charge
      Energy.spawn

/-- Carries out the command of a bot. Nothing is checked here. -/
def execute (s : State) (plan : Plan) (id : BotId) (c : Command) : Except Fault (State × Bool) :=
  match c with
  | .fission nd m => do return (← spawn s id (s.positionOf id + nd) m.toNat, false)
  | .fill _ | .void _ | .gfill _ _ | .gvoid _ _ =>
    match s.edit? plan id c with
    | none => .ok (s, false)
    | some edit => applyEdit s edit
  | c => .ok (s.execute plan id c)

def executeBot (plan : Plan) : State × Bool → BotId → Except Fault (State × Bool)
  | (s, earlier), id =>
    match plan.command? id with
    | none => .ok (s, earlier)
    | some c => do
      let (after, changed) ← execute s plan id c
      return (after, earlier || changed)

def executeAll (s : State) (plan : Plan) (ids : List BotId) : Except Fault (State × Bool) :=
  ids.foldlM (executeBot plan) (s.charge (Energy.passive s ids.length), false)

def resolveStep (s : State) (rules : Rules) (plan : Plan) (ids : List BotId) :
    Except Fault (Except StepError StepReport × State) := do
  match ← (checkPlan s rules plan ids).run with
  | .error e => return (.error e, s)
  | .ok () =>
    let (after, changed) ← executeAll s plan ids
    if after.groundingDue rules s.harmonics changed then
      let floating ← floatingCount after.matrix
      if 0 < floating then return (.error (.ungrounded floating), after)
    return (.ok ⟨ids.length, after.energy - s.energy, after.halted⟩, after)

def runStep {σ : Type} [CommandSource σ] (s : State) (rules : Rules) (src : σ) :
    Except Fault (Except StepError StepReport × State × σ) := do
  match readPlan s.activeIds Plan.empty src with
  | (.error e, src) => return (.error (.parse e), s, src)
  | (.ok plan, src) =>
    let (result, after) ← resolveStep s rules plan s.activeIds
    return (result, after, src)

/-! ## No guard of the checks reports -/

variable {s t : State} {rules : Rules} {plan : Plan} {b : Bot} {id : BotId} {c : Command}

theorem checkVoid_eq (hm : s.matrix.Consistent) (p : Position) :
    checkVoid s p = plain (s.checkVoid p) := by
  rw [checkVoid, State.checkVoid]
  by_cases hin : s.matrix.Holds p
  · rw [if_neg (not_not_intro hin), if_neg (not_not_intro hin), lift_bind (get_eq hm hin)]
    cases s.matrix.get p <;> rfl
  · rw [if_pos hin, if_pos hin]

theorem checkPath_eq (hm : s.matrix.Consistent) {ps : List Position} :
    checkPath s ps = plain (s.checkPath ps) := by
  induction ps with
  | nil => rfl
  | cons p ps ih =>
    rw [checkPath, State.checkPath, checkVoid_eq hm]
    exact plain_bind fun _ _ => ih

theorem checkFission_eq (hm : s.matrix.Consistent) (id : BotId) (target : Position) (m : Nat) :
    checkFission s id target m = plain (s.checkFission id target m) := by
  rw [checkFission, State.checkFission, checkVoid_eq hm]
  refine plain_bind fun _ _ => ?_
  simp only
  split <;> rfl

theorem checkAlone_eq (hm : s.matrix.Consistent) (rules : Rules) (id : BotId) (c : Command) :
    checkAlone s rules id c = plain (s.checkAlone rules id c) := by
  cases c with
  | smove lld => exact checkPath_eq hm
  | lmove sld₁ sld₂ =>
    simp only [checkAlone, State.checkAlone, checkPath_eq hm]
    exact plain_bind fun _ _ => rfl
  | fission nd m => exact checkFission_eq hm id _ _
  | _ => rfl

theorem checkPrecondition_eq (hm : s.matrix.Consistent) (id : BotId) (c : Command) :
    checkPrecondition s rules plan id c = plain (s.checkPrecondition rules plan id c) := by
  rw [checkPrecondition, State.checkPrecondition, checkAlone_eq hm]
  exact plain_bind fun _ _ => rfl

theorem checkBot_eq (hm : s.matrix.Consistent) (id : BotId) :
    checkBot s rules plan id = plain (s.checkBot rules plan id) := by
  rw [checkBot, State.checkBot]
  cases plan.command? id with
  | none => rfl
  | some c =>
    refine plain_bind fun _ _ => ?_
    rw [checkPrecondition_eq hm, adapt_plain]

theorem checkBots_eq (hm : s.matrix.Consistent) {ids : List BotId} :
    checkBots s rules plan ids = plain (s.checkBots rules plan ids) := by
  induction ids with
  | nil => rfl
  | cons id ids ih =>
    rw [checkBots, State.checkBots, checkBot_eq hm]
    exact plain_bind fun _ _ => ih

theorem checkPlan_eq (hm : s.matrix.Consistent) (ids : List BotId) :
    checkPlan s rules plan ids = plain (s.checkPlan rules plan ids) := by
  rw [checkPlan, State.checkPlan, checkBots_eq hm]
  exact plain_bind fun _ _ => rfl

/-! ## Without a mishap no guard reports -/

theorem writeVoxel_eq {now : State × Bool} (hm : now.1.matrix.Consistent) {p : Position}
    (hp : now.1.matrix.Holds p) (value : Bool) :
    writeVoxel value now p = .ok (State.writeVoxel value now p) := by
  have hset : set (now.1.charge (Energy.write value (now.1.matrix.get p))).matrix p value =
      .ok ((now.1.charge (Energy.write value (now.1.matrix.get p))).matrix.set p value) :=
    set_eq hm hp value
  simp only [writeVoxel, State.writeVoxel, get_eq hm hp, hset, bind, Except.bind]
  split <;> rfl

theorem applyEdit_eq {edit : Edit} (hm : t.matrix.Consistent)
    (hholds : ∀ p ∈ edit.voxels, t.matrix.Holds p) :
    applyEdit t edit = .ok (t.applyEdit edit) := by
  have hall : (edit.voxels.takeWhile fun p => decide (t.matrix.Holds p)) = edit.voxels :=
    List.takeWhile_eq_self_iff.2 fun p hp => decide_eq_true (hholds p hp)
  -- writing changes neither the size of the grid nor that the matrix is consistent
  have hloop := foldlM_eq_foldl (f := writeVoxel edit.value)
    (I := fun ps now => now.1.matrix.Consistent ∧ ∀ p ∈ ps, now.1.matrix.Holds p)
    (fun {p _ now} hI => by
      obtain ⟨hp, hrest⟩ := List.forall_mem_cons.1 hI.2
      refine ⟨writeVoxel_eq hI.1 hp edit.value, ?_⟩
      simp only [State.writeVoxel]
      split
      · exact ⟨hI.1, hrest⟩
      · exact ⟨hI.1.set p edit.value, fun q hq => Matrix.holds_set.2 (hrest q hq)⟩)
    (l := edit.voxels) (b := (t, false)) ⟨hm, hholds⟩
  rw [State.applyEdit, hall]
  exact hloop.1

theorem handOver_eq {m : Nat} (h : m < b.seeds.length) :
    ∃ split, b.handOver m = some split ∧ handOver b m = .ok split := by
  cases hseeds : b.seeds with
  | nil => simp [hseeds] at h
  | cons child rest =>
    have hle : m ≤ rest.length := by simpa [hseeds, Nat.lt_succ_iff] using h
    refine ⟨(child, rest.take m, { b with seeds := rest.drop m }), ?_, ?_⟩
    · rw [Bot.handOver, hseeds]
      exact if_neg (Nat.not_lt.2 hle)
    · rw [handOver, hseeds]
      exact if_neg (Nat.not_lt.2 (Nat.succ_le_succ hle))

theorem spawn_eq {target : Position} {m : Nat}
    (h : ∀ b, t.bot? id = some b → m < b.seeds.length) :
    spawn t id target m = .ok (t.spawn id target m) := by
  rw [spawn, State.spawn]
  cases hslot : t.bot? id with
  | none => rfl
  | some b =>
    obtain ⟨split, hsplit, hok⟩ := handOver_eq (h b hslot)
    simp only [hok, Option.bind_some, hsplit]
    rfl

theorem execute_eq (hm : t.matrix.Consistent) (hnone : t.mishap? plan id c = none) :
    execute t plan id c = .ok (t.execute plan id c) := by
  obtain ⟨hholds, hseeds⟩ := State.mishap?_eq_none_iff.1 hnone
  cases c
  case fission nd m =>
    rw [execute, spawn_eq fun b hslot => hseeds nd m b rfl hslot]
    rfl
  case fill | void | gfill | gvoid =>
    rw [execute, State.execute]
    generalize t.edit? plan id _ = edit? at hholds ⊢
    cases edit? with
    | none => rfl
    | some edit => exact applyEdit_eq hm (hholds edit rfl)
  all_goals rfl

/-- A command that has not been checked may come to one. -/
example : execute State.crew Plan.empty ⟨1⟩ (.fill ⟨0, 0, -1⟩) =
    .error (.mishap (.strayVoxel ⟨⟨0, 0, -1⟩, 3⟩)) := by
  decide +kernel

example : execute State.crew Plan.empty ⟨3⟩ (.fission ⟨0, 1, 0⟩ 2) =
    .error (.mishap (.seedShortage 3 2)) := by
  decide +kernel

/-! ## No guard of a step reports -/

theorem executeAll_eq (h : s.Arranged) (hm : s.matrix.Consistent) (hl : s.Legal rules plan) :
    executeAll s plan s.activeIds = .ok (s.executeAll plan s.activeIds) := by
  have hstart := State.Midway.start plan h.toSeated hm (Energy.passive s s.activeIds.length)
  -- the loop has come to where the turns of some of the bots lead, and the others are to come
  refine (foldlM_eq_foldl (f := executeBot plan)
    (I := fun ids now => ∃ done rest, s.activeBots = done ++ rest ∧ ids = rest.map (·.id) ∧
      State.Midway s plan (s.energy + Energy.passive s s.activeIds.length) done now.1 now.2)
    ?_ ⟨[], s.activeBots, rfl, rfl, hstart⟩).1
  rintro id ids ⟨t, changed⟩ ⟨done, rest, hsplit, hids, hmid⟩
  cases rest with
  | nil => simp at hids
  | cons b rest =>
    obtain ⟨rfl, rfl⟩ := List.cons.inj hids
    have hnodup := h.nodup_activeBots
    rw [hsplit] at hnodup
    have hdone : ∀ b' ∈ done, b' ∈ s.activeBots := fun b' hb' => by simp [hsplit, hb']
    have hb : b ∈ s.activeBots := by simp [hsplit]
    have hnew : b ∉ done := fun hmem =>
      List.disjoint_of_nodup_append hnodup hmem List.mem_cons_self
    obtain ⟨c, hc⟩ := (hl.covers b.id).2 (List.mem_map_of_mem hb)
    have hexec := execute_eq hmid.consistent (hmid.mishap?_eq_none hl h hdone hb hnew hc)
    have hnext := hmid.next hl h hdone hb hnew (hmid.turned hl h hdone hb hnew hc)
    simp only [executeBot, State.executeBot, hc, hexec]
    exact ⟨rfl, done ++ [b], rest, hsplit.trans (List.append_cons done b rest), rfl, hnext⟩

theorem resolveStep_eq (h : s.Arranged) (hm : s.matrix.Consistent)
    (hl : s.checkPlan rules plan s.activeIds = .ok () → s.Legal rules plan) :
    resolveStep s rules plan s.activeIds = .ok (s.resolveStep rules plan s.activeIds) := by
  rw [resolveStep, State.resolveStep, checkPlan_eq hm, run_plain]
  cases hcheck : s.checkPlan rules plan s.activeIds with
  | error e => rfl
  | ok _ =>
    have hlegal := hl hcheck
    have hmid := hlegal.midway_executeAll h hm (List.Perm.refl _)
    have hfloating := floatingCount_eq hmid.consistent
    rw [← State.activeIds] at hfloating
    simp only [bind, Except.bind, executeAll_eq h hm hlegal]
    by_cases hdue : (s.executeAll plan s.activeIds).1.groundingDue rules s.harmonics
        (s.executeAll plan s.activeIds).2 = true
    · simp only [hdue, if_true, hfloating, true_and]
      split <;> rfl
    · rw [if_neg hdue, if_neg fun hfloats => hdue hfloats.1]
      rfl

theorem runStep_eq {σ : Type} [CommandSource σ] (h : s.Arranged) (hm : s.matrix.Consistent)
    (src : σ) : runStep s rules src = .ok (s.runStep rules src) := by
  rw [runStep, State.runStep]
  cases hread : readPlan s.activeIds Plan.empty src with
  | mk plan src' =>
    cases plan with
    | error e => rfl
    | ok plan =>
      have hcovers := covers_of_readPlan h.toSeated hread
      simp only [resolveStep_eq h hm (State.checkPlan_eq_ok_iff h.toSeated hcovers).1]
      rfl

end Guarded

end VoxelSwarm
