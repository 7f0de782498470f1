import VoxelSwarm.CommandLine.Grade
import VoxelSwarm.Proofs.Session.Drive
import VoxelSwarm.Proofs.Session.Shift

/-!
# Single steps and runs to the end

A step takes at least one byte of the trace for each active bot (`remaining_runStep`), so a run to
the end never wants for fuel (`drive_eq_of_lt`), and taking single steps first does not change what
becomes of it (`runFull_of_takeSteps`). Steps that fail have gone well up to the last one
(`takeSteps_eq_error`), and whoever fails in the end does not halt on the way
(`status_takeSteps_ne`). `takeSteps_keeps` is the induction over steps that are taken one by one.
-/

namespace VoxelSwarm

@[simp] theorem TraceError.shift_zero (e : TraceError) : e.shift 0 = e := by
  cases e <;> simp [shift]

@[simp] theorem StepError.shift_zero (e : StepError) : e.shift 0 = e := by
  cases e <;> simp [shift]

@[simp] theorem SessionError.shift_zero (e : SessionError) : e.shift 0 = e := by
  cases e <;> simp [shift]

variable {r r' : TraceReader}

/-! ## Fuel -/

section Fuel

variable {σ : Type} [CommandSource σ] {src src' : σ}

/-- What is taken from a source is gone. -/
def CommandSource.Spends (σ : Type) [CommandSource σ] : Prop :=
  ∀ (src src' : σ) (c : Command), CommandSource.next src = (.ok c, src') →
    CommandSource.remaining src' < CommandSource.remaining src

theorem TraceReader.spends : CommandSource.Spends TraceReader := by
  intro r r' c hnext
  exact remaining_next_of_ok hnext

theorem remaining_readPlan (hσ : CommandSource.Spends σ) {ids : List BotId} {plan plan' : Plan}
    (h : readPlan ids plan src = (.ok plan', src')) :
    CommandSource.remaining src' + ids.length ≤ CommandSource.remaining src := by
  induction ids generalizing plan src with
  | nil =>
    obtain ⟨-, rfl⟩ := Prod.mk.inj h
    exact Nat.le_refl _
  | cons id ids ih =>
    rw [readPlan] at h
    split at h
    · cases h
    · next c src₁ hnext =>
      have hfirst := hσ src src₁ c hnext
      have hrest := ih h
      rw [List.length_cons]
      omega

theorem State.remaining_runStep (hσ : CommandSource.Spends σ) {s t : State} {rules : Rules}
    {report : StepReport} (h : s.runStep rules src = (.ok report, t, src')) :
    CommandSource.remaining src' + s.activeCount ≤ CommandSource.remaining src := by
  rw [runStep] at h
  split at h
  · cases h
  · next plan src₁ hread =>
    have hconsumed := remaining_readPlan hσ hread
    rw [activeIds, List.length_map] at hconsumed
    obtain rfl : src₁ = src' := congrArg (·.2.2) h
    exact hconsumed

theorem Session.Takes.spends (hσ : CommandSource.Spends σ) {e e' : Session}
    {report : StepReport} (h : e.Takes src report e' src') (hsound : e.Sound) :
    CommandSource.remaining src' < CommandSource.remaining src := by
  have hconsumed := State.remaining_runStep hσ h.step
  have hactive : 0 < e.state.activeCount := by
    have hne := hsound.activeIds_ne_nil h.running
    rw [State.activeIds] at hne
    exact List.length_pos_iff.2 fun hnil => hne (List.map_eq_nil_iff.2 hnil)
  omega

end Fuel

namespace Session

variable {e e' : Session} {mode : RunMode} {status : Status} {report : StepReport}

theorem Takes.advance (h : e.Takes r report e' r') (mode : RunMode) :
    ∃ e'', e.advance mode r = (.ok e'.status, e'', r') ∧ Ahead 0 e'' e' := by
  have hstep := h.step
  have hrules := h.rules
  have hcount := h.stepCount
  have hstatus := h.status
  rw [Session.advance, if_neg (not_not.2 h.running), hstep]
  simp only [conclude]
  by_cases hhalted : report.halted = true
  · rw [if_pos hhalted] at hstatus
    rw [if_pos hhalted, hstatus]
    refine ⟨_, rfl, ?_, ?_, ?_, ?_⟩ <;> simp [hrules, hcount, hstatus, beginRun]
  · rw [if_neg hhalted] at hstatus
    rw [if_neg hhalted, hstatus]
    refine ⟨_, congrArg (fun status => (Except.ok status, _)) h.running, ?_, ?_, ?_, ?_⟩ <;>
      simp [hrules, hcount, hstatus, h.running, beginRun]

theorem Takes.remaining_lt (h : e.Takes r report e' r') (hsound : e.Sound) :
    r'.remaining < r.remaining := h.spends TraceReader.spends hsound

theorem drive_succ (hsound : e.Sound) {fuel : Nat} (hfuel : r.remaining < fuel) :
    drive mode (fun _ => true) (fuel + 1) e r = drive mode (fun _ => true) fuel e r := by
  induction fuel generalizing e r with
  | zero => exact absurd hfuel (Nat.not_lt_zero _)
  | succ fuel ih =>
    rw [drive, drive]
    split
    · next hgoes =>
      cases hstep : e.advance mode r with
      | mk result after =>
      cases result with
      | error cause => rfl
      | ok status =>
        obtain ⟨-, report, htakes⟩ := advance_eq_ok hgoes.1 hstep
        have hlt := htakes.remaining_lt hsound
        have hnext := hsound.advance mode r
        rw [hstep] at hnext
        exact ih hnext (by omega)
    · rfl

theorem drive_eq_of_lt (hsound : e.Sound) (mode : RunMode) {fuel : Nat}
    (hfuel : r.remaining < fuel) :
    drive mode (fun _ => true) fuel e r = drive mode (fun _ => true) (r.remaining + 1) e r := by
  induction fuel, hfuel using Nat.le_induction with
  | base => rfl
  | succ fuel hfuel ih => rw [drive_succ hsound hfuel, ih]

/-! ## Steps one by one -/

theorem runOneStep_eq_ok (h : e.runOneStep = (.ok status, e')) :
    status = e'.status ∧
      (e.status ≠ .running ∧ e' = e ∨ ∃ report, e.Takes e.trace report e' e'.trace) := by
  unfold runOneStep at h
  by_cases hrunning : e.status = .running
  · cases hstep : e.advance .interactive e.trace with
    | mk result after =>
    rw [hstep] at h
    obtain ⟨rfl, rfl⟩ := Prod.mk.inj h
    obtain ⟨hstatus, report, htakes⟩ := advance_eq_ok hrunning hstep
    exact ⟨hstatus, .inr ⟨report, htakes.running, htakes.step, htakes.rules, htakes.stepCount,
      htakes.status, htakes.staged⟩⟩
  · rw [Session.advance, if_pos hrunning] at h
    obtain ⟨hstatus, rfl⟩ := Prod.mk.inj h
    exact ⟨(Except.ok.inj hstatus).symm, .inl ⟨hrunning, rfl⟩⟩

theorem exists_takes_of_runStep {t : State} (hrunning : e.status = .running)
    (h : e.state.runStep e.rules e.trace = (.ok report, t, r')) :
    ∃ e', e.runOneStep = (.ok e'.status, e') ∧ e.Takes e.trace report e' e'.trace ∧
      e'.state = t ∧ e'.trace = r' := by
  obtain ⟨e', hadvance, htakes, hstate⟩ := exists_takes .interactive hrunning h
  refine ⟨{ e' with trace := r' }, ?_, ⟨htakes.running, htakes.step, htakes.rules,
    htakes.stepCount, htakes.status, htakes.staged⟩, hstate, rfl⟩
  rw [runOneStep, hadvance]

open CommandLine (takeSteps)

theorem takeSteps_one (h : e.runOneStep = (.ok status, e')) : takeSteps 1 e = (.ok (), e') := by
  rw [takeSteps, h]
  cases status <;> rfl

theorem runOneStep_eq_error {cause : StepError} (h : e.runOneStep = (.error cause, e')) :
    e.Fails e.trace cause e' e'.trace := by
  unfold runOneStep at h
  cases hstep : e.advance .interactive e.trace with
  | mk result after =>
  obtain ⟨e₁, r₁⟩ := after
  rw [hstep] at h
  obtain ⟨rfl, rfl⟩ := Prod.mk.inj h
  have hfails := advance_eq_error hstep
  exact ⟨hfails.running, hfails.step, hfails.stepCount, hfails.status⟩

theorem takeSteps_one_of_runStep {why : StepError} (hrunning : e.status = .running)
    (h : (e.state.runStep e.rules e.trace).1 = .error why) :
    ∃ e', takeSteps 1 e = (.error (.step why), e') ∧
      e.state.runStep e.rules e.trace = (.error why, e'.state, e'.trace) := by
  have hadvance := advance_of_runStep .interactive hrunning h
  cases hone : e.runOneStep with
  | mk result e' =>
  obtain rfl : result = .error why := (congrArg Prod.fst hone).symm.trans hadvance
  exact ⟨e', by rw [takeSteps, hone], (runOneStep_eq_error hone).step⟩

theorem takeSteps_eq_error {cause : SessionError} {k : Nat}
    (h : takeSteps k e = (.error cause, e')) :
    ∃ j last why, takeSteps j e = (.ok (), last) ∧ last.runOneStep = (.error why, e') ∧
      cause = .step why := by
  induction k generalizing e with
  | zero => cases h
  | succ k ih =>
    cases hone : e.runOneStep with
    | mk result e₁ =>
    rw [takeSteps, hone] at h
    cases result with
    | error why =>
      simp only [Prod.mk.injEq, Except.error.injEq] at h
      obtain ⟨rfl, rfl⟩ := h
      exact ⟨0, e, why, rfl, hone, rfl⟩
    | ok status =>
      cases status with
      | halted => cases h
      | _ =>
        obtain ⟨j, last, why, hsteps, hlast, hcause⟩ := ih h
        exact ⟨j + 1, last, why, by rw [takeSteps, hone]; exact hsteps, hlast, hcause⟩

/-- What a step that succeeds keeps is kept by any number of them. -/
theorem takeSteps_keeps {I : Session → Prop} {k : Nat}
    (hstep : ∀ {e e' : Session} {report : StepReport},
      e.Takes e.trace report e' e'.trace → I e → I e')
    (h : takeSteps k e = (.ok (), e')) (hI : I e) : I e' := by
  induction k generalizing e with
  | zero =>
    obtain ⟨-, rfl⟩ := Prod.mk.inj h
    exact hI
  | succ k ih =>
    rw [takeSteps] at h
    split at h
    · cases h
    · next e₁ hone =>
      obtain ⟨-, rfl⟩ := Prod.mk.inj h
      rcases (runOneStep_eq_ok hone).2 with ⟨-, rfl⟩ | ⟨report, htakes⟩
      · exact hI
      · exact hstep htakes hI
    · next status e₁ _ hone =>
      rcases (runOneStep_eq_ok hone).2 with ⟨-, rfl⟩ | ⟨report, htakes⟩
      · exact ih h hI
      · exact ih h (hstep htakes hI)

theorem RunsAlike.refl (x : Except SessionError Int × Session) : RunsAlike 0 0 x x where
  result := by
    cases x.1 with
    | error cause => exact congrArg Except.error (SessionError.shift_zero cause).symm
    | ok _ => rfl
  session := Ahead.refl _
  trace := TraceReader.Ahead.refl _

theorem RunsAlike.trans {n m : Nat} {x y z : Except SessionError Int × Session}
    (h : RunsAlike 0 0 x y) (h' : RunsAlike n m y z) : RunsAlike n m x z where
  result := by
    have hsame : y.1.mapError (SessionError.shift 0) = y.1 := (RunsAlike.refl y).result.symm
    rw [h.result, hsame, h'.result]
  session :=
    ⟨h.session.state.trans h'.session.state, h.session.rules.trans h'.session.rules,
      h.session.status.trans h'.session.status, by
        rw [h.session.stepCount, Nat.zero_add, h'.session.stepCount]⟩
  trace := ⟨h.trace.unread.trans h'.trace.unread, by
    rw [h.trace.offset, Nat.zero_add, h'.trace.offset]⟩

theorem Takes.runFull (h : e.Takes e.trace report e' e'.trace) (hsound : e.Sound) :
    RunsAlike 0 0 e.runFull e'.runFull := by
  obtain ⟨e'', hadvance, hahead⟩ := h.advance .auto
  have hfirst : drive .auto (fun _ => true) (e.trace.remaining + 1) e e.trace =
      drive .auto (fun _ => true) e.trace.remaining e'' e'.trace := by
    rw [drive, if_pos ⟨h.running, rfl⟩, hadvance]
  have hrest := drive_eq_of_lt (h.sound hsound) .auto (h.remaining_lt hsound)
  have hagree := drive_agree hahead (TraceReader.Ahead.refl e'.trace) .auto .auto e.trace.remaining
  rw [← hfirst, hrest] at hagree
  rw [runFull_eq (by simp [h.running]), runFull_eq (by rw [h.status]; split <;> simp)]
  exact hagree.settle

/-- Steps that are taken one by one are the first steps of the run to the end. -/
theorem runFull_of_takeSteps {k : Nat} (hsound : e.Sound) (h : takeSteps k e = (.ok (), e')) :
    RunsAlike 0 0 e.runFull e'.runFull := by
  refine (takeSteps_keeps (I := fun x => x.Sound ∧ RunsAlike 0 0 e.runFull x.runFull) ?_ h
    ⟨hsound, RunsAlike.refl _⟩).2
  rintro x x' report htakes ⟨hsound, halike⟩
  exact ⟨htakes.sound hsound, halike.trans (htakes.runFull hsound)⟩

/-! ## How runs to the end come out -/

theorem steps_of_runFull_error {cause : SessionError} (haborted : e.status ≠ .aborted)
    (h : e.runFull = (.error cause, e')) :
    ∃ rounds last r why, cause = .step why ∧ Steps rounds e e.trace last r ∧
      last.Fails r why e' e'.trace := by
  rw [runFull_eq haborted] at h
  cases hdrive : drive .auto (fun _ => true) (e.trace.remaining + 1) e e.trace with
  | mk result after =>
  obtain ⟨e₁, r₁⟩ := after
  rw [hdrive] at h
  cases result with
  | ok status => cases h
  | error why =>
    simp only [settle, Prod.mk.injEq, Except.error.injEq] at h
    obtain ⟨rfl, rfl⟩ := h
    obtain ⟨rounds, last, r, hsteps, hfails⟩ := steps_of_drive_error hdrive
    exact ⟨rounds, last, r, why, rfl, hsteps, hfails.running, hfails.step, hfails.stepCount,
      hfails.status⟩

theorem runFull_eq_error {cause : SessionError} (h : e.runFull = (.error cause, e')) :
    e'.status = .aborted := by
  by_cases haborted : e.status = .aborted
  · rw [runFull, if_pos haborted] at h
    obtain ⟨-, rfl⟩ := Prod.mk.inj h
    exact haborted
  · obtain ⟨_, _, _, _, -, -, hfails⟩ := steps_of_runFull_error haborted h
    exact hfails.status

theorem runFull_of_halted (h : e.status = .halted) : e.runFull = (.ok e.state.energy, e) := by
  have hover : ¬(e.status = .running ∧ true = true) := by simp [h]
  rw [runFull_eq (by simp [h]), drive, if_neg hover]
  rfl

theorem runFull_of_runStep {why : StepError} (hrunning : e.status = .running)
    (h : (e.state.runStep e.rules e.trace).1 = .error why) :
    e.runFull.1 = .error (.step why) := by
  have hdrive := drive_of_runStep .auto (fun _ => true) e.trace.remaining hrunning rfl h
  rw [runFull_eq (by simp [hrunning])]
  cases hstep : drive .auto (fun _ => true) (e.trace.remaining + 1) e e.trace with
  | mk result after =>
  rw [hstep] at hdrive
  obtain rfl : result = .error why := hdrive
  rfl

/-- Whoever fails in the end does not halt on the way. -/
theorem status_takeSteps_ne {cause : SessionError} {k : Nat} (hsound : e.Sound)
    (h : e.runFull.1 = .error cause) : (takeSteps k e).2.status ≠ .halted := by
  intro hhalted
  cases hsteps : takeSteps k e with
  | mk result e' =>
  rw [hsteps] at hhalted
  cases result with
  | error why =>
    obtain ⟨j, last, why, -, hlast, -⟩ := takeSteps_eq_error hsteps
    exact nomatch hhalted.symm.trans (runOneStep_eq_error hlast).status
  | ok _ =>
    have hresult := (runFull_of_takeSteps hsound hsteps).result
    rw [h, runFull_of_halted hhalted] at hresult
    cases hresult

end Session

end VoxelSwarm
