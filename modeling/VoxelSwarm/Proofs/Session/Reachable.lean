import VoxelSwarm.Proofs.Step.Atomic
import VoxelSwarm.Session.Basic

/-!
# What operations keep

`Session.Reachable` holds of the sessions that operations lead to, in any order and whatever becomes
of each. Their bots make sense together, a running one has a bot left, and only active bots have
staged commands (`Reachable.sound`).
-/

namespace VoxelSwarm

namespace State

variable {s t : State} {rules : Rules} {plan : Plan} {result : Except StepError StepReport}

/-- A plan that only active bots have commands in is legal when it passes the checks. -/
theorem legal_of_checkPlan (hs : s.Seated)
    (honly : ∀ id c, plan.command? id = some c → id ∈ s.activeIds)
    (hok : s.checkPlan rules plan s.activeIds = .ok ()) : s.Legal rules plan := by
  have hcovers : plan.Covers s := fun id =>
    ⟨fun ⟨c, hc⟩ => honly id c hc, fun hid => exists_command?_of_checkPlan hok id hid⟩
  exact (checkPlan_eq_ok_iff hs hcovers).1 hok

theorem Orderly.of_resolveStep (h : s.Orderly)
    (honly : ∀ id c, plan.command? id = some c → id ∈ s.activeIds)
    (hstep : s.resolveStep rules plan s.activeIds = (result, t)) :
    t.Orderly ∧ ∀ report, result = .ok report → report.halted = t.halted := by
  rcases resolveStep_cases hstep with ⟨e, -, rfl, rfl⟩ | ⟨hok, rfl, hresult⟩
  · refine ⟨h, fun report hreport => ?_⟩
    cases hreport
  · have hl := legal_of_checkPlan h.seated honly hok
    refine ⟨h.executeAll hl, fun report hreport => ?_⟩
    rcases hresult with hdone | ⟨hfloats, -⟩
    · rw [hdone] at hreport
      rw [← Except.ok.inj hreport]
    · rw [hfloats] at hreport
      cases hreport

theorem Orderly.of_runStep {σ : Type} [CommandSource σ] {src : σ} {after : State × σ}
    (h : s.Orderly) (hstep : s.runStep rules src = (result, after)) :
    after.1.Orderly ∧ ∀ report, result = .ok report → report.halted = after.1.halted := by
  rw [runStep] at hstep
  split at hstep
  · obtain ⟨rfl, rfl⟩ := Prod.mk.inj hstep
    refine ⟨h, fun report hreport => ?_⟩
    cases hreport
  · next plan src' hread =>
    obtain ⟨hresult, rfl⟩ := Prod.mk.inj hstep
    have hcovers := covers_of_readPlan h.seated hread
    exact h.of_resolveStep (fun id c hc => (hcovers id).1 ⟨c, hc⟩) (Prod.ext hresult rfl)

end State

namespace Session

/-- What can be done to a session. -/
inductive Operation where
  | setTrace (bytes : List UInt8)
  | setState (s : State)
  | setProblem (name : String)
  | setSolution (name : String)
  | observe
  | runOneStep
  | runFull
  | runCommands (cs : List Command)
  | checkCommand (c : Command)
  | stageCommand (c : Command)
  | commitStagedStep

/-- The session after an operation. One that is refused leaves it as it was. -/
def Operation.perform (e : Session) : Operation → Session
  | .setTrace bytes => e.setTrace bytes
  | .setState s => match e.setState s with
    | .ok e' => e'
    | .error _ => e
  | .setProblem name => e.setProblem name
  | .setSolution name => e.setSolution name
  | .observe => e.observe
  | .runOneStep => e.runOneStep.2
  | .runFull => e.runFull.2
  | .runCommands cs => (e.runCommands cs).2
  | .checkCommand _ => e
  | .stageCommand c => match e.stageCommand c with
    | .ok e' => e'
    | .error _ => e
  | .commitStagedStep => e.commitStagedStep.2

/-- The session that operations lead to, one after the other, from one that has been created. -/
inductive Reachable : Session → Prop
  | create {source target : Option Matrix} {rules : Rules} {e : Session} :
      Session.create source target rules = .ok e → Reachable e
  | perform {e : Session} (op : Operation) : Reachable e → Reachable (op.perform e)

/-- The bots make sense together, one of them is active while the session runs, and only active
ones have staged commands. -/
structure Sound (e : Session) : Prop where
  orderly : e.state.Orderly
  running : e.status = .running → e.state.halted = false
  staged : ∀ id c, e.staged.command? id = some c → id ∈ e.state.activeIds

variable {e e' : Session} {mode : RunMode} {s : State} {c : Command}

theorem Sound.activeIds_ne_nil (h : e.Sound) (hrunning : e.status = .running) :
    e.state.activeIds ≠ [] := by
  intro hnil
  have hhalted := h.orderly.halted_iff.2 (List.map_eq_nil_iff.1 hnil)
  exact nomatch (h.running hrunning).symm.trans hhalted

/-! ## How a step is concluded -/

@[simp] theorem state_publish (e : Session) (outcome : Outcome) :
    (e.publish outcome).state = e.state := by
  unfold publish
  split <;> rfl

@[simp] theorem status_publish (e : Session) (outcome : Outcome) :
    (e.publish outcome).status = e.status := by
  unfold publish
  split <;> rfl

@[simp] theorem staged_publish (e : Session) (outcome : Outcome) :
    (e.publish outcome).staged = e.staged := by
  unfold publish
  split <;> rfl

@[simp] theorem rules_publish (e : Session) (outcome : Outcome) :
    (e.publish outcome).rules = e.rules := by
  unfold publish
  split <;> rfl

@[simp] theorem stepCount_publish (e : Session) (outcome : Outcome) :
    (e.publish outcome).stepCount = e.stepCount := by
  unfold publish
  split <;> rfl

@[simp] theorem state_conclude (e : Session) (result : Except StepError StepReport) :
    (e.conclude result).2.state = e.state := by
  unfold conclude
  split
  · split <;> simp
  · simp

@[simp] theorem staged_conclude (e : Session) (result : Except StepError StepReport) :
    (e.conclude result).2.staged = e.staged := by
  unfold conclude
  split
  · split <;> simp
  · simp

theorem conclude_ok (e : Session) (report : StepReport) :
    (e.conclude (.ok report)).1 = .ok (e.conclude (.ok report)).2.status := by
  simp only [conclude]
  split <;> simp

theorem running_conclude {result : Except StepError StepReport}
    (hhalted : ∀ report, result = .ok report → report.halted = e.state.halted)
    (hrunning : (e.conclude result).2.status = .running) : e.state.halted = false := by
  unfold conclude at hrunning
  split at hrunning
  · next report =>
    rw [← hhalted report rfl]
    split at hrunning
    · simp at hrunning
    · next hnot => simpa using hnot
  · simp at hrunning

theorem staged_empty (e : Session) (hstaged : e.staged = Plan.empty) :
    ∀ id c, e.staged.command? id = some c → id ∈ e.state.activeIds := by
  intro id c hc
  rw [hstaged, Plan.command?_empty] at hc
  cases hc

theorem sound_conclude {result : Except StepError StepReport} (horderly : e.state.Orderly)
    (hhalted : ∀ report, result = .ok report → report.halted = e.state.halted)
    (hstaged : e.staged = Plan.empty) : (e.conclude result).2.Sound where
  orderly := by
    rw [state_conclude]
    exact horderly
  running hrunning := by
    rw [state_conclude]
    exact running_conclude hhalted hrunning
  staged := staged_empty _ ((staged_conclude ..).trans hstaged)

theorem Sound.advance {σ : Type} [CommandSource σ] (h : e.Sound) (mode : RunMode) (src : σ) :
    (e.advance mode src).2.1.Sound := by
  unfold Session.advance
  split
  · exact h
  · cases hstep : e.state.runStep e.rules src with
    | mk result after =>
    obtain ⟨hafter, hhalted⟩ := h.orderly.of_runStep hstep
    exact sound_conclude hafter hhalted rfl

theorem Sound.drive {σ : Type} [CommandSource σ] (h : e.Sound) (mode : RunMode)
    (more : σ → Bool) (fuel : Nat) (src : σ) : (Session.drive mode more fuel e src).2.1.Sound := by
  induction fuel generalizing e src with
  | zero => exact h
  | succ fuel ih =>
    unfold Session.drive
    split
    · have hnext := h.advance mode src
      split
      · next heq => rwa [heq] at hnext
      · next heq =>
        rw [heq] at hnext
        exact ih hnext _
    · exact h

theorem Sound.commitStagedStep (h : e.Sound) : e.commitStagedStep.2.Sound := by
  unfold Session.commitStagedStep
  split
  · exact h
  · cases hstep : e.state.resolveStep e.rules e.staged e.state.activeIds with
    | mk result after =>
    obtain ⟨hafter, hhalted⟩ := h.orderly.of_resolveStep h.staged hstep
    exact sound_conclude hafter hhalted rfl

/-! ## Other operations -/

theorem sound_of_setState (hset : e.setState s = .ok e') : e'.Sound := by
  cases hcheck : s.checkWellFormed with
  | error cause =>
    rw [Session.setState, hcheck] at hset
    cases hset
  | ok _ =>
    rw [Session.setState, hcheck] at hset
    obtain rfl := Except.ok.inj hset
    refine ⟨(State.checkWellFormed_eq_ok_iff.1 hcheck).1.orderly, fun hrunning => ?_,
      staged_empty _ rfl⟩
    by_contra hhalted
    simp [hhalted] at hrunning

theorem nextBot_eq_ok {id : BotId} (hnext : e.nextBot = .ok id) :
    e.state.activeIds[e.staged.size]? = some id := by
  unfold nextBot at hnext
  split at hnext
  · next hid =>
    rw [hid, Except.ok.inj hnext]
  · cases hnext

theorem stageCommand_eq_ok (hstage : e.stageCommand c = .ok e') :
    e.checkCommand c = .ok () ∧ ∃ id, e.state.activeIds[e.staged.size]? = some id ∧
      e' = { e with staged := e.staged.assign id c } := by
  unfold Session.stageCommand at hstage
  cases hcheck : e.checkCommand c with
  | error cause =>
    rw [hcheck] at hstage
    cases hstage
  | ok _ =>
    rw [hcheck] at hstage
    cases hnext : e.nextBot with
    | error cause =>
      rw [hnext] at hstage
      cases hstage
    | ok id =>
      rw [hnext] at hstage
      exact ⟨rfl, id, nextBot_eq_ok hnext, (Except.ok.inj hstage).symm⟩

theorem Sound.stageCommand (h : e.Sound) (hstage : e.stageCommand c = .ok e') : e'.Sound := by
  obtain ⟨-, id, hid, rfl⟩ := stageCommand_eq_ok hstage
  have hmem : id ∈ e.state.activeIds := List.mem_of_getElem? hid
  obtain ⟨b, hb, -⟩ := h.orderly.seated.mem_activeIds.1 hmem
  refine ⟨h.orderly, h.running, fun other c' hc' => ?_⟩
  rw [Plan.command?_assign _ (h.orderly.seated.index_lt hb)] at hc'
  split at hc'
  · next heq => exact heq ▸ hmem
  · exact h.staged other c' hc'

theorem exists_initial_of_create {source target : Option Matrix} {rules : Rules}
    (h : Session.create source target rules = .ok e) :
    ∃ s, State.initial source target = .ok s ∧ e = ofState s rules := by
  cases hinitial : State.initial source target with
  | error cause =>
    rw [Session.create, hinitial] at h
    cases h
  | ok s =>
    rw [Session.create, hinitial] at h
    exact ⟨s, rfl, (Except.ok.inj h).symm⟩

theorem sound_of_create {source target : Option Matrix} {rules : Rules}
    (hcreate : Session.create source target rules = .ok e) : e.Sound := by
  obtain ⟨s, hinitial, rfl⟩ := exists_initial_of_create hcreate
  refine ⟨State.orderly_of_initial hinitial, fun _ => ?_, staged_empty _ rfl⟩
  obtain ⟨m, m', rfl⟩ := State.exists_start_of_initial hinitial
  rfl

theorem Sound.perform (h : e.Sound) (op : Operation) : (op.perform e).Sound := by
  cases op with
  | setTrace bytes => exact ⟨h.orderly, h.running, staged_empty _ rfl⟩
  | setState s =>
    simp only [Operation.perform]
    split
    · next hset => exact sound_of_setState hset
    · exact h
  | setProblem name => exact ⟨h.orderly, h.running, h.staged⟩
  | setSolution name => exact ⟨h.orderly, h.running, h.staged⟩
  | observe => exact ⟨h.orderly, h.running, h.staged⟩
  | runOneStep =>
    have hnext := h.advance .interactive e.trace
    exact ⟨hnext.orderly, hnext.running, hnext.staged⟩
  | runFull =>
    have hnext := h.drive .auto (fun _ => true) (e.trace.remaining + 1) e.trace
    simp only [Operation.perform, runFull]
    split
    · exact h
    · split
      · next heq =>
        rw [heq] at hnext
        exact ⟨hnext.orderly, hnext.running, hnext.staged⟩
      · next heq =>
        rw [heq] at hnext
        exact ⟨hnext.orderly, hnext.running, hnext.staged⟩
  | runCommands cs =>
    exact h.drive .interactive (fun src : CommandList => !src.exhausted) (cs.length + 1)
      (CommandList.ofList cs)
  | checkCommand c => exact h
  | stageCommand c =>
    simp only [Operation.perform]
    split
    · next hstage => exact h.stageCommand hstage
    · exact h
  | commitStagedStep => exact h.commitStagedStep

/-- Whatever has been done to a session, it makes sense. -/
theorem Reachable.sound (h : Reachable e) : e.Sound := by
  induction h with
  | create hcreate => exact sound_of_create hcreate
  | perform op _ ih => exact ih.perform op

end Session

end VoxelSwarm
