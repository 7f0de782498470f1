import VoxelSwarm.Proofs.Session.Stepwise

/-!
# Runs that fail

Whichever way a running session is made to take steps, the first step that fails ends the run, and
those before it are counted (`Aborts`). What the failed step has made of the state is said in
`VoxelSwarm.Proofs.Step.Atomic`; `step_errors_atomic` puts the two together.
-/

namespace VoxelSwarm

namespace Session

variable {σ : Type} [CommandSource σ] {src src₁ src' : σ} {e e' last : Session} {n : Nat}
  {cause : StepError} {cs : List Command} {rounds : List (State × Plan)}

/-- The session takes `n` steps that succeed and one that fails. It is over then, and those that
have succeeded are counted. -/
structure Aborts (n : Nat) (e : Session) (src : σ) (cause : StepError) (e' : Session) (src' : σ) :
    Prop where
  steps : ∃ rounds last src₁, rounds.length = n ∧ Steps rounds e src last src₁ ∧
    last.Fails src₁ cause e' src'
  status : e'.status = .aborted
  stepCount : e'.stepCount = e.stepCount + n

theorem Fails.aborts (h : last.Fails src₁ cause e' src') (hsteps : Steps rounds e src last src₁) :
    Aborts rounds.length e src cause e' src' where
  steps := ⟨rounds, last, src₁, rfl, hsteps, h⟩
  status := h.status
  stepCount := by rw [h.stepCount, hsteps.stepCount]

theorem aborts_of_runOneStep (h : e.runOneStep = (.error cause, e')) :
    Aborts 0 e e.trace cause e' e'.trace :=
  (runOneStep_eq_error h).aborts (.none e e.trace)

theorem aborts_of_runFull {why : SessionError} (hrunning : e.status = .running)
    (h : e.runFull = (.error why, e')) :
    ∃ n cause, why = .step cause ∧ Aborts n e e.trace cause e' e'.trace := by
  obtain ⟨rounds, last, r, cause, hcause, hsteps, hfails⟩ :=
    steps_of_runFull_error (by simp [hrunning]) h
  exact ⟨rounds.length, cause, hcause, hfails.aborts hsteps⟩

theorem aborts_of_runCommands (h : e.runCommands cs = (.error cause, e')) :
    ∃ n src', Aborts n e (CommandList.ofList cs) cause e' src' := by
  unfold runCommands at h
  cases hdrive : drive .interactive (fun src : CommandList => !src.exhausted) (cs.length + 1) e
      (CommandList.ofList cs) with
  | mk result after =>
  rw [hdrive] at h
  obtain ⟨rfl, rfl⟩ := Prod.mk.inj h
  obtain ⟨rounds, last, src₁, hsteps, hfails⟩ := steps_of_drive_error hdrive
  exact ⟨rounds.length, after.2, hfails.aborts hsteps⟩

theorem fails_of_commitStagedStep (h : e.commitStagedStep = (.error cause, e')) :
    e.state.resolveStep e.rules e.staged e.state.activeIds = (.error cause, e'.state) ∧
      e'.status = .aborted ∧ e'.stepCount = e.stepCount := by
  by_cases hrunning : e.status = .running
  · rw [commitStagedStep, if_neg (not_not.2 hrunning)] at h
    cases hstep : e.state.resolveStep e.rules e.staged e.state.activeIds with
    | mk result after =>
    rw [hstep] at h
    cases result with
    | ok report => exact absurd (congrArg Prod.fst h) (by simp [conclude_ok])
    | error why =>
      simp only [conclude, Prod.mk.injEq, Except.error.injEq] at h
      obtain ⟨rfl, rfl⟩ := h
      simp [beginRun]
  · rw [commitStagedStep, if_pos hrunning] at h
    cases h

/-- Errors of steps are atomic. In every state that has been accepted, or that steps have made of
one, a step from any source fails with the state as it was, or with all commands carried out and
charged for and exactly as many voxels floating as the error says, and it never misses a command.
A running session whose step fails is over, and the failed step is not counted, while those before
it are. -/
theorem step_errors_atomic :
    (∀ {σ : Type} [CommandSource σ] (s₀ s t : State) (rules : Rules) (src src' : σ)
      (cause : StepError), s₀.Accepted → State.Attempts s₀ s →
        s.runStep rules src = (.error cause, t, src') →
          (∀ id, cause ≠ .missingCommand id) ∧ ((∀ n, cause ≠ .ungrounded n) → t = s) ∧
            ∀ n, cause = .ungrounded n → ∃ plan,
              readPlan s.activeIds Plan.empty src = (.ok plan, src') ∧
                s.LeftFloating rules plan t n) ∧
    ∀ e e' : Session, e.status = .running →
      (∀ cause, e.runOneStep = (.error cause, e') → Aborts 0 e e.trace cause e' e'.trace) ∧
      (∀ why, e.runFull = (.error why, e') →
        ∃ n cause, why = .step cause ∧ Aborts n e e.trace cause e' e'.trace) ∧
      (∀ cs cause, e.runCommands cs = (.error cause, e') →
        ∃ n src', Aborts n e (CommandList.ofList cs) cause e' src') ∧
      ∀ cause, e.commitStagedStep = (.error cause, e') →
        e.state.resolveStep e.rules e.staged e.state.activeIds = (.error cause, e'.state) ∧
          e'.status = .aborted ∧ e'.stepCount = e.stepCount := by
  constructor
  · intro σ _ s₀ s t rules src src' cause haccepted hrun hstep
    have horderly := haccepted.orderly
    exact State.runStep_eq_error (hrun.orderly horderly)
      (hrun.consistent horderly haccepted.consistent) hstep
  · intro e e' hrunning
    exact ⟨fun _ => aborts_of_runOneStep, fun _ => aborts_of_runFull hrunning,
      fun _ _ => aborts_of_runCommands, fun _ => fails_of_commitStagedStep⟩

theorem step_errors_atomic_above :
    (∃ t src' plan, (State.start (Matrix.empty 3) (Matrix.empty 3)).runStep {}
          (CommandList.ofList [.fill ⟨0, 1, 0⟩]) = (.error (.ungrounded 1), t, src') ∧
        (State.start (Matrix.empty 3) (Matrix.empty 3)).LeftFloating {} plan t 1) ∧
      ∃ e' n src', (ofState (State.start (Matrix.empty 3) (Matrix.empty 3)) {}).runCommands
          [.fill ⟨0, 1, 0⟩] = (.error (.ungrounded 1), e') ∧
        Aborts n (ofState (State.start (Matrix.empty 3) (Matrix.empty 3)) {})
          (CommandList.ofList [.fill ⟨0, 1, 0⟩]) (.ungrounded 1) e' src' := by
  have hconsistent : ∀ m ∈ some (Matrix.empty 3), m.Consistent := by
    rintro m ⟨rfl⟩
    exact .empty 3
  have haccepted : (State.start (Matrix.empty 3) (Matrix.empty 3)).Accepted :=
    .initial hconsistent hconsistent rfl
  have hstep : ((State.start (Matrix.empty 3) (Matrix.empty 3)).runStep {}
      (CommandList.ofList [.fill ⟨0, 1, 0⟩])).1 = .error (.ungrounded 1) := by
    rw [State.start_eq]
    have hids : (⟨Matrix.empty 3, Matrix.empty 3, State.foundingSlots, 0, .low, false⟩ :
        State).activeIds = [⟨1⟩] := by
      decide +kernel
    rw [State.runStep_alone_floats hids rfl (by decide +kernel) rfl (by decide +kernel)
      (by decide +kernel)]
    decide +kernel
  have hrun : ((ofState (State.start (Matrix.empty 3) (Matrix.empty 3)) {}).runCommands
      [.fill ⟨0, 1, 0⟩]).1 = .error (.ungrounded 1) :=
    drive_of_runStep (e := ofState (State.start (Matrix.empty 3) (Matrix.empty 3)) {})
      .interactive (fun src : CommandList => !src.exhausted) 1 rfl rfl hstep
  constructor
  · obtain ⟨-, -, hfloats⟩ := step_errors_atomic.1 _ _ _ {} _ _ _ haccepted (.none _)
      (Prod.ext hstep rfl)
    obtain ⟨plan, -, hleft⟩ := hfloats 1 rfl
    exact ⟨_, _, plan, Prod.ext hstep rfl, hleft⟩
  · obtain ⟨-, -, hcommands, -⟩ := step_errors_atomic.2
      (ofState (State.start (Matrix.empty 3) (Matrix.empty 3)) {}) _ rfl
    obtain ⟨n, src', haborts⟩ := hcommands _ _ (Prod.ext hrun rfl)
    exact ⟨_, n, src', Prod.ext hrun rfl, haborts⟩

end Session

end VoxelSwarm
