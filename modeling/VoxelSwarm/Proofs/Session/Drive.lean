import VoxelSwarm.Proofs.Session.Reachable
import VoxelSwarm.Proofs.Step.Runs

/-!
# Steps in a row

What becomes of a session that takes its commands from a source. One step either succeeds and is
counted (`Takes`) or fails and ends the run (`Fails`), and driving a session takes steps that
succeed (`Steps`) up to the last one, which may fail (`steps_of_drive`). The states along the way
make a `State.Run` (`Steps.run`).
-/

namespace VoxelSwarm

namespace Session

variable {σ : Type} [CommandSource σ] {src src₁ src' : σ} {e e₁ e' : Session} {mode : RunMode}
  {status : Status} {report : StepReport} {cause : StepError}

/-! ## One step -/

/-- A running session takes a step that succeeds, from a given source. -/
structure Takes (e : Session) (src : σ) (report : StepReport) (e' : Session) (src' : σ) :
    Prop where
  running : e.status = .running
  step : e.state.runStep e.rules src = (.ok report, e'.state, src')
  rules : e'.rules = e.rules
  stepCount : e'.stepCount = e.stepCount + 1
  status : e'.status = if report.halted then .halted else .running
  staged : e'.staged = Plan.empty

/-- A running session takes a step that fails, from a given source. The run is over, and the step
is not counted. -/
structure Fails (e : Session) (src : σ) (cause : StepError) (e' : Session) (src' : σ) : Prop where
  running : e.status = .running
  step : e.state.runStep e.rules src = (.error cause, e'.state, src')
  stepCount : e'.stepCount = e.stepCount
  status : e'.status = .aborted

theorem advance_eq_ok (hrunning : e.status = .running)
    (h : e.advance mode src = (.ok status, e', src')) :
    status = e'.status ∧ ∃ report, e.Takes src report e' src' := by
  rw [Session.advance, if_neg (not_not.2 hrunning)] at h
  cases hstep : e.state.runStep e.rules src with
  | mk result after =>
  rw [hstep] at h
  cases result with
  | error cause => exact absurd (congrArg Prod.fst h) (by simp [conclude])
  | ok report =>
    simp only [conclude] at h
    split at h
    · next hhalted =>
      simp only [Prod.mk.injEq, Except.ok.injEq] at h
      obtain ⟨rfl, rfl, rfl⟩ := h
      refine ⟨by simp, report, hrunning, ?_, ?_, ?_, ?_, ?_⟩ <;> simp [hstep, hhalted, beginRun]
    · next hgoes =>
      simp only [Prod.mk.injEq, Except.ok.injEq] at h
      obtain ⟨rfl, rfl, rfl⟩ := h
      have hstatus : e.status = if report.halted then .halted else .running := by
        rw [if_neg hgoes, hrunning]
      exact ⟨rfl, report, hrunning, hstep, rfl, rfl, hstatus, rfl⟩

theorem advance_eq_error (h : e.advance mode src = (.error cause, e', src')) :
    e.Fails src cause e' src' := by
  by_cases hrunning : e.status = .running
  · rw [Session.advance, if_neg (not_not.2 hrunning)] at h
    cases hstep : e.state.runStep e.rules src with
    | mk result after =>
    rw [hstep] at h
    cases result with
    | ok report => exact absurd (congrArg Prod.fst h) (by simp [conclude_ok])
    | error why =>
      simp only [conclude, Prod.mk.injEq, Except.error.injEq] at h
      obtain ⟨rfl, rfl, rfl⟩ := h
      refine ⟨hrunning, ?_, ?_, ?_⟩ <;> simp [hstep, beginRun]
  · rw [Session.advance, if_pos hrunning] at h
    cases h

theorem advance_of_runStep (mode : RunMode) (hrunning : e.status = .running)
    (h : (e.state.runStep e.rules src).1 = .error cause) :
    (e.advance mode src).1 = .error cause := by
  rw [Session.advance, if_neg (not_not.2 hrunning)]
  cases hstep : e.state.runStep e.rules src with
  | mk result after =>
  rw [hstep] at h
  obtain rfl : result = .error cause := h
  rfl

theorem Takes.sound (h : e.Takes src report e' src') (hsound : e.Sound) : e'.Sound := by
  obtain ⟨horderly, hhalted⟩ := hsound.orderly.of_runStep h.step
  refine ⟨horderly, fun hrunning => ?_, staged_empty _ h.staged⟩
  rw [h.status] at hrunning
  rw [← hhalted report rfl]
  split at hrunning
  · cases hrunning
  · next hgoes => simpa using hgoes

theorem exists_takes (mode : RunMode) {t : State} (hrunning : e.status = .running)
    (h : e.state.runStep e.rules src = (.ok report, t, src')) :
    ∃ e', e.advance mode src = (.ok e'.status, e', src') ∧ e.Takes src report e' src' ∧
      e'.state = t := by
  let begun : Session := { e.beginRun mode with state := t, staged := Plan.empty }
  have hadvance : e.advance mode src =
      (.ok (begun.conclude (.ok report)).2.status, (begun.conclude (.ok report)).2, src') := by
    rw [Session.advance, if_neg (not_not.2 hrunning), h, ← conclude_ok begun report]
  have hstate : (begun.conclude (.ok report)).2.state = t := state_conclude begun (.ok report)
  obtain ⟨-, report', htakes⟩ := advance_eq_ok hrunning hadvance
  have hsame := htakes.step
  rw [h] at hsame
  obtain rfl : report = report' := Except.ok.inj (congrArg Prod.fst hsame)
  exact ⟨_, hadvance, htakes, hstate⟩

theorem exists_fails (mode : RunMode) {t : State} (hrunning : e.status = .running)
    (h : e.state.runStep e.rules src = (.error cause, t, src')) :
    ∃ e', e.advance mode src = (.error cause, e', src') ∧ e.Fails src cause e' src' ∧
      e'.state = t := by
  have hfails := advance_of_runStep mode hrunning (congrArg Prod.fst h)
  cases hadvance : e.advance mode src with
  | mk result after =>
  obtain ⟨e', src₁⟩ := after
  rw [hadvance] at hfails
  obtain rfl : result = .error cause := hfails
  have hlast := advance_eq_error hadvance
  have hsame := hlast.step
  rw [h] at hsame
  simp only [Prod.mk.injEq, true_and] at hsame
  obtain ⟨rfl, rfl⟩ := hsame
  exact ⟨e', rfl, hlast, rfl⟩

theorem Takes.exists_plan (h : e.Takes src report e' src') :
    ∃ plan, readPlan e.state.activeIds Plan.empty src = (.ok plan, src') := by
  rcases State.readPlan_of_runStep h.step with ⟨_, -, hcause, -⟩ | ⟨plan, hread, -⟩
  · cases hcause
  · exact ⟨plan, hread⟩

/-! ## Several steps -/

/-- The session takes steps one after the other, and all of them succeed. The list has the state
before each step and the plan that has been read for it. -/
inductive Steps : List (State × Plan) → Session → σ → Session → σ → Prop
  | none (e : Session) (src : σ) : Steps [] e src e src
  | step {rounds : List (State × Plan)} {plan : Plan} {e e₁ e' : Session} {src src₁ src' : σ}
    {report : StepReport} (read : readPlan e.state.activeIds Plan.empty src = (.ok plan, src₁))
    (first : e.Takes src report e₁ src₁) (rest : Steps rounds e₁ src₁ e' src') :
    Steps ((e.state, plan) :: rounds) e src e' src'

namespace Steps

variable {rounds : List (State × Plan)}

theorem stepCount (h : Steps rounds e src e' src') :
    e'.stepCount = e.stepCount + rounds.length := by
  induction h with
  | none => rfl
  | step _ first _ ih =>
    rw [ih, first.stepCount, List.length_cons]
    omega

theorem rules (h : Steps rounds e src e' src') : e'.rules = e.rules := by
  induction h with
  | none => rfl
  | step _ first _ ih => rw [ih, first.rules]

theorem running (h : Steps rounds e src e' src') (hrunning : e'.status = .running) :
    e.status = .running := by
  cases h with
  | none => exact hrunning
  | step _ first _ => exact first.running

theorem run (h : Steps rounds e src e' src') (horderly : e.state.Orderly) :
    State.Run e.rules e.state rounds e'.state := by
  induction h with
  | none e => exact .nil e.state
  | @step _ plan e _ _ _ _ _ _ read first _ ih =>
    have hcompletes := State.completes_of_readPlan horderly.seated read first.step
    have hrun := ih (horderly.of_runStep first.step).1
    rw [first.rules] at hrun
    exact .cons hcompletes hrun

theorem eq_concat (h : Steps rounds e src e' src') (hne : rounds ≠ []) :
    ∃ before last plan src₁ report, rounds = before ++ [(last.state, plan)] ∧
      Steps before e src last src₁ ∧
      readPlan last.state.activeIds Plan.empty src₁ = (.ok plan, src') ∧
      last.Takes src₁ report e' src' := by
  induction h with
  | none => exact absurd rfl hne
  | @step rounds plan e e₁ e' src src₁ src' report read first rest ih =>
    cases rest with
    | none => exact ⟨[], e, plan, src, report, rfl, .none e src, read, first⟩
    | step read' first' rest' =>
      obtain ⟨before, last, plan', src₂, report', hrounds, hbefore, hread, hlast⟩ := ih (by simp)
      rw [hrounds]
      exact ⟨_ :: before, last, plan', src₂, report', rfl, .step read first hbefore, hread, hlast⟩

end Steps

/-- Driving a session takes steps that succeed, and one more if it fails. -/
theorem steps_of_drive {more : σ → Bool} {fuel : Nat} {result : Except StepError Status}
    (h : drive mode more fuel e src = (result, e', src')) :
    ∃ rounds last src₁, Steps rounds e src last src₁ ∧
      (result = .ok e'.status ∧ e' = last ∧ src' = src₁ ∨
        ∃ cause, result = .error cause ∧ last.Fails src₁ cause e' src') := by
  induction fuel generalizing e src with
  | zero =>
    simp only [drive, Prod.mk.injEq] at h
    obtain ⟨rfl, rfl, rfl⟩ := h
    exact ⟨[], e, src, .none e src, .inl ⟨rfl, rfl, rfl⟩⟩
  | succ fuel ih =>
    rw [drive] at h
    split at h
    · next hgoes =>
      cases hstep : e.advance mode src with
      | mk first after =>
      obtain ⟨e₁, src₁⟩ := after
      rw [hstep] at h
      cases first with
      | error cause =>
        simp only [Prod.mk.injEq] at h
        obtain ⟨rfl, rfl, rfl⟩ := h
        exact ⟨[], e, src, .none e src, .inr ⟨cause, rfl, advance_eq_error hstep⟩⟩
      | ok status =>
        obtain ⟨-, report, htakes⟩ := advance_eq_ok hgoes.1 hstep
        obtain ⟨plan, hread⟩ := htakes.exists_plan
        obtain ⟨rounds, last, src₂, hsteps, hend⟩ := ih h
        exact ⟨_, last, src₂, .step hread htakes hsteps, hend⟩
    · simp only [Prod.mk.injEq] at h
      obtain ⟨rfl, rfl, rfl⟩ := h
      exact ⟨[], e, src, .none e src, .inl ⟨rfl, rfl, rfl⟩⟩

theorem drive_of_runStep (mode : RunMode) (more : σ → Bool) (fuel : Nat)
    (hrunning : e.status = .running) (hmore : more src = true)
    (h : (e.state.runStep e.rules src).1 = .error cause) :
    (drive mode more (fuel + 1) e src).1 = .error cause := by
  have hadvance := advance_of_runStep mode hrunning h
  rw [drive, if_pos ⟨hrunning, hmore⟩]
  cases hstep : e.advance mode src with
  | mk result after =>
  rw [hstep] at hadvance
  obtain rfl : result = .error cause := hadvance
  rfl

theorem steps_of_drive_error {more : σ → Bool} {fuel : Nat}
    (h : drive mode more fuel e src = (.error cause, e', src')) :
    ∃ rounds last src₁, Steps rounds e src last src₁ ∧ last.Fails src₁ cause e' src' := by
  obtain ⟨rounds, last, src₁, hsteps, ⟨hok, -⟩ | ⟨cause', herror, hfails⟩⟩ := steps_of_drive h
  · cases hok
  · obtain rfl := Except.error.inj herror
    exact ⟨rounds, last, src₁, hsteps, hfails⟩

end Session

end VoxelSwarm
