import VoxelSwarm.Proofs.Step.Atomic

/-!
# Steps that halt

A step that brings a run to its end consists of one command, of the first bot, which is alone at the
origin under low harmonics (`Completes.halts`). The step leaves matrix and field as they were, so
what it proves about the matrix has been true before it: that it is the target, if the rules ask for
it, and that nothing floats (`Completes.grounded_of_halting`).

A legal plan halts a run through the halt of a bot that may (`Orderly.exists_halts`), which is why
matter that a step finds floating floats under low harmonics, whatever the policy
(`floats_of_runStep`).

The rules enter a step in two places only. Which plans pass depends on whether the target has to be
reached (`checkPlan_congr`), and the grounding policy says after which steps floating matter is
looked for (`runStep_of_due`).
-/

namespace VoxelSwarm

namespace State

variable {s t : State} {rules rules' : Rules} {plan : Plan} {ids : List BotId} {id : BotId}
  {report : StepReport} {c : Command}

/-- The plan halts the only bot that is left where it may halt, and `t` is the end of the run. -/
structure Halting (s : State) (rules : Rules) (plan : Plan) (t : State) : Prop where
  alone : s.activeIds = [BotId.first]
  command : plan.command? BotId.first = some .halt
  origin : s.positionOf BotId.first = Position.origin
  low : s.harmonics = .low
  halted : t.halted = true
  retired : t.activeBots = []
  field : t.harmonics = .low
  matrix : t.matrix = s.matrix
  target : rules.targetBeforeHalt = true → t.matrix = t.target

theorem Completes.halted_iff (hc : s.Completes rules plan report t) (h : s.Orderly) :
    t.halted = true ↔ s.halted = true ∨ ∃ id ∈ s.activeIds, plan.command? id = some .halt := by
  rw [← (resolveStep_eq_ok_iff.1 hc.resolves).2.1, h.halted_executeAll (hc.legal h.seated)]
  simp [activeIds]

theorem Orderly.exists_halts (h : s.Orderly) (hl : s.Legal rules plan) (hgoes : s.halted = false)
    (hhalted : (s.executeAll plan s.activeIds).1.halted = true) :
    ∃ b ∈ s.activeBots, plan.command? b.id = some .halt ∧ s.PermitsHalt rules b ∧
      (s.executeAll plan s.activeIds).1.harmonics = .low := by
  rcases (h.halted_executeAll hl).1 hhalted with hover | ⟨b, hb, hcommand⟩
  · exact nomatch hgoes.symm.trans hover
  · have hpermits : s.PermitsHalt rules b := hl.permits b hb .halt hcommand
    refine ⟨b, hb, hcommand, hpermits, ?_⟩
    rw [activeIds, hpermits.alone, List.map_singleton, State.executeAll, List.foldl_cons,
      List.foldl_nil, executeBot, hcommand]
    exact hpermits.low

theorem Completes.halts (hc : s.Completes rules plan report t) (h : s.Coherent)
    (hm : s.matrix.Consistent) (hgoes : s.halted = false) (hhalted : t.halted = true) :
    s.Halting rules plan t := by
  have hmid := hc.midway h hm
  have hl := hc.legal h.toSeated
  have ht := (resolveStep_eq_ok_iff.1 hc.resolves).2.1
  obtain ⟨b, hb, hcommand, hpermits, hfield⟩ := h.orderly.exists_halts hl hgoes (ht ▸ hhalted)
  rw [ht] at hfield
  have hmatrix : t.matrix = s.matrix := by
    refine hmid.consistent.ext hm hmid.resolution fun p => hmid.unwritten p fun b' hb' e he => ?_
    rw [hpermits.alone, List.mem_singleton] at hb'
    subst hb'
    simp [editOf, hcommand, edit?] at he
  have hids : s.activeIds = [BotId.first] := by
    rw [activeIds, hpermits.alone, List.map_singleton, hpermits.first]
  refine ⟨hids, hpermits.first ▸ hcommand, ?_, hpermits.low, hhalted,
    (hc.coherent h hm).activity.1 hhalted, hfield, hmatrix, fun htarget => ?_⟩
  · rw [← hpermits.first, h.positionOf_eq hb, hpermits.origin]
  · rw [hmatrix, hpermits.target htarget, hmid.target]

/-- Nothing floats at the end of a run, if it is looked for at all. When every step looks for it,
the one that halts does not, but then the steps before it have. -/
theorem Completes.grounded_of_halting (hc : s.Completes rules plan report t) (h : s.Coherent)
    (hm : s.matrix.Consistent) (hhalting : s.Halting rules plan t)
    (hg : rules.grounding ≠ .never)
    (hground : rules.grounding = .everyStep → s.harmonics = .low → s.matrix.floatingCount = 0) :
    t.matrix.floatingCount = 0 := by
  cases hpolicy : rules.grounding with
  | everyStep => exact hc.grounded hpolicy h hm (hground hpolicy) hhalting.field
  | atHalt =>
    refine (resolveStep_eq_ok_iff.1 hc.resolves).2.2.1 ?_
    rw [groundingDue, hpolicy]
    exact hhalting.halted
  | never => exact absurd hpolicy hg

/-- Matter that a step finds floating floats under low harmonics. A policy that asks for them sees
to that itself, and one that looks at the halt only finds them there. -/
theorem floats_of_runStep {σ : Type} [CommandSource σ] {src src' : σ} {n : Nat} (h : s.Orderly)
    (hgoes : s.halted = false)
    (hstep : s.runStep rules src = (.error (.ungrounded n), t, src')) :
    t.harmonics = .low ∧ 0 < t.matrix.floatingCount := by
  rcases readPlan_of_runStep hstep with ⟨_, -, hcause, -⟩ | ⟨plan, hread, hresolve⟩
  · cases hcause
  rcases resolveStep_cases hresolve with
    ⟨_, hcheck, hcause, -⟩ | ⟨hok, rfl, hcause | ⟨-, hdue, hpos⟩⟩
  · obtain rfl := Except.error.inj hcause
    exact (ofPlan_of_checkPlan hcheck).elim
  · cases hcause
  refine ⟨?_, hpos⟩
  unfold groundingDue at hdue
  cases hpolicy : rules.grounding with
  | everyStep =>
    simp only [hpolicy, Bool.and_eq_true, decide_eq_true_eq] at hdue
    exact hdue.1
  | atHalt =>
    simp only [hpolicy] at hdue
    have hl := (checkPlan_eq_ok_iff h.seated (covers_of_readPlan h.seated hread)).1 hok
    obtain ⟨-, -, -, -, hlow⟩ := h.exists_halts hl hgoes hdue
    exact hlow
  | never =>
    rw [hpolicy] at hdue
    cases hdue

/-! ## Two sets of rules -/

theorem checkPrecondition_congr (h : rules.targetBeforeHalt = rules'.targetBeforeHalt) :
    s.checkPrecondition rules plan id c = s.checkPrecondition rules' plan id c := by
  cases c <;> simp only [checkPrecondition, checkAlone, checkHalt, h]

theorem checkPlan_congr (h : rules.targetBeforeHalt = rules'.targetBeforeHalt) :
    s.checkPlan rules plan ids = s.checkPlan rules' plan ids := by
  have hbots : s.checkBots rules plan ids = s.checkBots rules' plan ids := by
    induction ids with
    | nil => rfl
    | cons id ids ih => simp only [checkBots, checkBot, checkPrecondition_congr h, ih]
  rw [checkPlan, checkPlan, hbots]

/-- A step that goes well does so under other rules, if they ask for no more of the target and what
they look for is not there. -/
theorem runStep_of_due {σ : Type} [CommandSource σ] {src src' : σ}
    (htarget : rules.targetBeforeHalt = rules'.targetBeforeHalt)
    (hstep : s.runStep rules src = (.ok report, t, src'))
    (hdue : ∀ changed, t.groundingDue rules' s.harmonics changed = true →
      t.matrix.floatingCount = 0) :
    s.runStep rules' src = (.ok report, t, src') := by
  rcases readPlan_of_runStep hstep with ⟨_, -, hcause, -⟩ | ⟨plan, hread, hresolve⟩
  · cases hcause
  · obtain ⟨hok, hdone, -, hreport⟩ := resolveStep_eq_ok_iff.1 hresolve
    have hresolve' : s.resolveStep rules' plan s.activeIds = (.ok report, t) :=
      resolveStep_eq_ok_iff.2 ⟨checkPlan_congr htarget ▸ hok, hdone, hdue _, hreport⟩
    rw [runStep, hread]
    simp only [hresolve']

end State

end VoxelSwarm
