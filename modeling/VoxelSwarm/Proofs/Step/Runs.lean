import VoxelSwarm.Proofs.Step.Invariant

/-!
# Runs

A step that succeeds keeps states coherent and matrices consistent (`Completes.coherent`,
`Completes.consistent`), under every rule. If every step looks for floating matter, it keeps the
whole check (`Completes.wellFormed`), and so does a run of any length (`Run.wellFormed`).
-/

namespace VoxelSwarm

namespace State

/-- The plan has been given for the active bots, and the step that carries it out succeeds. -/
structure Completes (s : State) (rules : Rules) (plan : Plan) (report : StepReport) (t : State) :
    Prop where
  covers : plan.Covers s
  resolves : s.resolveStep rules plan s.activeIds = (.ok report, t)

/-- A run of successful steps, with the state before each step and its plan. -/
inductive Run (rules : Rules) : State → List (State × Plan) → State → Prop
  | nil (s : State) : Run rules s [] s
  | cons {s t u : State} {plan : Plan} {report : StepReport} {rounds : List (State × Plan)}
    (first : s.Completes rules plan report t) (rest : Run rules t rounds u) :
    Run rules s ((s, plan) :: rounds) u

variable {s t : State} {rules : Rules} {plan : Plan} {report : StepReport}
  {rounds : List (State × Plan)}

theorem readPlan_of_runStep {σ : Type} [CommandSource σ] {src src' : σ}
    {result : Except StepError StepReport} (h : s.runStep rules src = (result, t, src')) :
    (∃ cause, readPlan s.activeIds Plan.empty src = (.error cause, src') ∧
        result = .error (.parse cause) ∧ t = s) ∨
      ∃ plan, readPlan s.activeIds Plan.empty src = (.ok plan, src') ∧
        s.resolveStep rules plan s.activeIds = (result, t) := by
  rw [runStep] at h
  split at h
  · next cause src₁ hread =>
    simp only [Prod.mk.injEq] at h
    obtain ⟨rfl, rfl, rfl⟩ := h
    exact .inl ⟨cause, hread, rfl, rfl⟩
  · next plan src₁ hread =>
    simp only [Prod.mk.injEq] at h
    obtain ⟨hresult, hafter, rfl⟩ := h
    exact .inr ⟨plan, hread, Prod.ext hresult hafter⟩

theorem completes_of_readPlan {σ : Type} [CommandSource σ] {src src₁ src' : σ} (hs : s.Seated)
    (hread : readPlan s.activeIds Plan.empty src = (.ok plan, src₁))
    (h : s.runStep rules src = (.ok report, t, src')) : s.Completes rules plan report t := by
  rcases readPlan_of_runStep h with ⟨_, -, hcause, -⟩ | ⟨plan', hread', hresolve⟩
  · cases hcause
  · rw [hread] at hread'
    obtain rfl := Except.ok.inj (congrArg Prod.fst hread')
    exact ⟨covers_of_readPlan hs hread, hresolve⟩

theorem exists_completes_of_runStep {σ : Type} [CommandSource σ] {src src' : σ} (hs : s.Seated)
    (h : s.runStep rules src = (.ok report, t, src')) :
    ∃ plan, s.Completes rules plan report t := by
  rcases readPlan_of_runStep h with ⟨_, -, hcause, -⟩ | ⟨plan, hread, hresolve⟩
  · cases hcause
  · exact ⟨plan, covers_of_readPlan hs hread, hresolve⟩

/-- What a step that succeeds has passed and done. -/
theorem resolveStep_eq_ok_iff :
    s.resolveStep rules plan s.activeIds = (.ok report, t) ↔
      s.checkPlan rules plan s.activeIds = .ok () ∧
        (s.executeAll plan s.activeIds).1 = t ∧
        (t.groundingDue rules s.harmonics (s.executeAll plan s.activeIds).2 = true →
          t.matrix.floatingCount = 0) ∧
        report = ⟨s.activeIds.length, t.energy - s.energy, t.halted⟩ := by
  rw [resolveStep]
  cases hcheck : s.checkPlan rules plan s.activeIds with
  | error e => simp
  | ok _ =>
    simp only [Nat.pos_iff_ne_zero]
    constructor
    · intro h
      split at h
      · simp at h
      · next hnot =>
        simp only [Prod.mk.injEq, Except.ok.injEq] at h
        obtain ⟨rfl, rfl⟩ := h
        exact ⟨trivial, rfl, fun hdue => by_contra fun hne => hnot ⟨hdue, hne⟩, rfl⟩
    · rintro ⟨-, rfl, hground, rfl⟩
      rw [if_neg fun h => h.2 (hground h.1)]

theorem groundingDue_of_unchanged {before : Harmonics} (hgoes : t.halted = false)
    (hsame : t.harmonics = before) : t.groundingDue rules before false = false := by
  unfold groundingDue
  cases rules.grounding with
  | everyStep => simp [hsame]
  | atHalt => exact hgoes
  | never => rfl

theorem checkPlan_alone {id : BotId} :
    s.checkPlan rules plan [id] = .ok () ↔ s.checkBot rules plan id = .ok () := by
  rw [checkPlan, seq_eq_ok_iff, checkFootprints_eq_ok_iff_none,
    findInterference?_eq_none_iff (List.nodup_singleton id), checkBots, checkBots, seq_eq_ok_iff]
  simp

theorem runStep_alone {σ : Type} [CommandSource σ] {src src' : σ} {id : BotId} {c : Command}
    (hids : s.activeIds = [id]) (hnext : CommandSource.next src = (.ok c, src'))
    (hcheck : s.checkBot rules (Plan.empty.assign id c) id = .ok ())
    (ht : (s.executeAll (Plan.empty.assign id c) [id]).1 = t)
    (hground : t.groundingDue rules s.harmonics
      (s.executeAll (Plan.empty.assign id c) [id]).2 = true → t.matrix.floatingCount = 0) :
    s.runStep rules src = (.ok ⟨1, t.energy - s.energy, t.halted⟩, t, src') := by
  have hresolves : s.resolveStep rules (Plan.empty.assign id c) s.activeIds =
      (.ok ⟨1, t.energy - s.energy, t.halted⟩, t) := by
    rw [resolveStep_eq_ok_iff, hids]
    exact ⟨checkPlan_alone.2 hcheck, ht, hground, rfl⟩
  rw [runStep, hids, readPlan, hnext]
  simp only [readPlan, ← hids, hresolves]

theorem runStep_alone_floats {σ : Type} [CommandSource σ] {src src' : σ} {id : BotId} {c : Command}
    (hids : s.activeIds = [id]) (hnext : CommandSource.next src = (.ok c, src'))
    (hcheck : s.checkBot rules (Plan.empty.assign id c) id = .ok ())
    (ht : (s.executeAll (Plan.empty.assign id c) [id]).1 = t)
    (hdue : t.groundingDue rules s.harmonics
      (s.executeAll (Plan.empty.assign id c) [id]).2 = true)
    (hfloats : 0 < t.matrix.floatingCount) :
    s.runStep rules src = (.error (.ungrounded t.matrix.floatingCount), t, src') := by
  rw [runStep, hids, readPlan, hnext]
  simp only [readPlan, resolveStep, checkPlan_alone.2 hcheck, ht, hdue, hfloats, and_self, if_true]

namespace Completes

theorem legal (h : s.Completes rules plan report t) (hs : s.Seated) : s.Legal rules plan :=
  (checkPlan_eq_ok_iff hs h.covers).1 (resolveStep_eq_ok_iff.1 h.resolves).1

theorem midway (hc : s.Completes rules plan report t) (h : s.Coherent)
    (hm : s.matrix.Consistent) :
    Midway s plan (s.energy + Energy.passive s s.activeCount) s.activeBots t
      (s.executeAll plan s.activeIds).2 := by
  have hmid := (hc.legal h.toSeated).midway_executeAll h hm (List.Perm.refl s.activeBots)
  rw [← (resolveStep_eq_ok_iff.1 hc.resolves).2.1]
  exact hmid

theorem coherent (hc : s.Completes rules plan report t) (h : s.Coherent)
    (hm : s.matrix.Consistent) : t.Coherent :=
  (hc.midway h hm).coherent (hc.legal h.toSeated) h

theorem consistent (hc : s.Completes rules plan report t) (h : s.Coherent)
    (hm : s.matrix.Consistent) : t.matrix.Consistent :=
  (hc.midway h hm).consistent

/-- A step that need not look for floating matter has left matrix and field as they were. -/
theorem grounded (hc : s.Completes rules plan report t) (hg : rules.grounding = .everyStep)
    (h : s.Coherent) (hm : s.matrix.Consistent)
    (hground : s.harmonics = .low → s.matrix.floatingCount = 0) :
    t.harmonics = .low → t.matrix.floatingCount = 0 := by
  intro hlow
  obtain ⟨-, -, hlooked, -⟩ := resolveStep_eq_ok_iff.1 hc.resolves
  by_cases hdue : t.groundingDue rules s.harmonics (s.executeAll plan s.activeIds).2 = true
  · exact hlooked hdue
  · simp only [groundingDue, hg, hlow, decide_true, Bool.true_and, Bool.or_eq_true,
      decide_eq_true_eq, not_or, not_not, Bool.not_eq_true] at hdue
    rw [(hc.midway h hm).matrix_eq_of_unchanged hm hdue.1]
    exact hground hdue.2.symm

theorem wellFormed (hc : s.Completes rules plan report t) (hg : rules.grounding = .everyStep)
    (hm : s.matrix.Consistent) (hwf : s.checkWellFormed = .ok ()) :
    t.checkWellFormed = .ok () := by
  obtain ⟨h, hground⟩ := checkWellFormed_eq_ok_iff.1 hwf
  exact checkWellFormed_eq_ok_iff.2 ⟨hc.coherent h hm, hc.grounded hg h hm hground⟩

end Completes

namespace Run

theorem concat {u : State} (hrun : Run rules s rounds t)
    (last : t.Completes rules plan report u) : Run rules s (rounds ++ [(t, plan)]) u := by
  induction hrun with
  | nil t => exact .cons last (.nil u)
  | cons first _ ih => exact .cons first (ih last)

/-- What every step that succeeds keeps is kept by runs. -/
theorem keeps {I : State → Prop} (hrun : Run rules s rounds t)
    (hstep : ∀ {s t : State} {plan : Plan} {report : StepReport},
      s.Completes rules plan report t → I s → I t)
    (h : I s) : I t := by
  induction hrun with
  | nil => exact h
  | cons first _ ih => exact ih (hstep first h)

theorem coherent (hrun : Run rules s rounds t) (h : s.Coherent) (hm : s.matrix.Consistent) :
    t.Coherent ∧ t.matrix.Consistent := by
  refine hrun.keeps (I := fun s => s.Coherent ∧ s.matrix.Consistent) ?_ ⟨h, hm⟩
  rintro _ _ _ _ hc ⟨h, hm⟩
  exact ⟨hc.coherent h hm, hc.consistent h hm⟩

theorem wellFormed (hrun : Run rules s rounds t) (hg : rules.grounding = .everyStep)
    (hm : s.matrix.Consistent) (hwf : s.checkWellFormed = .ok ()) :
    t.checkWellFormed = .ok () := by
  refine (hrun.keeps (I := fun s => s.matrix.Consistent ∧ s.checkWellFormed = .ok ()) ?_
    ⟨hm, hwf⟩).2
  rintro _ _ _ _ hc ⟨hm, hwf⟩
  exact ⟨hc.consistent (checkWellFormed_eq_ok_iff.1 hwf).1 hm, hc.wellFormed hg hm hwf⟩

end Run

/-- If every step looks for floating matter, then a step from any source that succeeds, and any
number of such steps, lead from a state that makes sense to one that makes sense. -/
theorem checkWellFormed_preserved (hg : rules.grounding = .everyStep)
    (hm : s.matrix.Consistent) (hwf : s.checkWellFormed = .ok ()) :
    (∀ {σ : Type} [CommandSource σ] (src src' : σ) (report : StepReport) (t : State),
      s.runStep rules src = (.ok report, t, src') → t.checkWellFormed = .ok ()) ∧
    ∀ (rounds : List (State × Plan)) (t : State), Run rules s rounds t →
      t.checkWellFormed = .ok () := by
  refine ⟨fun src src' report t hstep => ?_, fun rounds t hrun => hrun.wellFormed hg hm hwf⟩
  obtain ⟨plan, hc⟩ :=
    exists_completes_of_runStep (checkWellFormed_eq_ok_iff.1 hwf).1.toSeated hstep
  exact hc.wellFormed hg hm hwf

theorem crew_completes :
    crew.Completes {} crewPlan ⟨4, 173, false⟩ (crew.executeAll crewPlan crew.activeIds).1 :=
  ⟨crew_covers, resolveStep_eq_ok_iff.2
    ⟨crew_checkPlan, rfl, fun _ => by decide +kernel, by decide +kernel⟩⟩

theorem checkWellFormed_crew_after :
    crew.runStep {} (CommandList.ofList crewCommands) =
        (.ok ⟨4, 173, false⟩, (crew.executeAll crewPlan crew.activeIds).1, ⟨[], 4⟩) ∧
      (crew.executeAll crewPlan crew.activeIds).1.checkWellFormed = .ok () := by
  have hstep : crew.runStep {} (CommandList.ofList crewCommands) =
      (.ok ⟨4, 173, false⟩, (crew.executeAll crewPlan crew.activeIds).1, ⟨[], 4⟩) := by
    rw [runStep, crew_readPlan]
    simp only [crew_completes.resolves]
  exact ⟨hstep, (checkWellFormed_preserved rfl (Matrix.Consistent.empty 3)
    crew_checkWellFormed).1 _ _ _ _ hstep⟩

end State

end VoxelSwarm
