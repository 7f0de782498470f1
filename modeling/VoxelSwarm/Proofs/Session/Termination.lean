import VoxelSwarm.Proofs.Session.Lifecycle
import VoxelSwarm.Proofs.Session.Resume

/-!
# Runs come to an end

`Loop` is a run without a bound on its steps: steps are taken as long as the session runs and there
is something to take them from, until one fails. A session that makes sense has an active bot while
it runs, so every step that succeeds takes a command away from the source, and there are no more
steps than commands, but for one that fails (`Loop.length_le`). The bound that `drive` is given is
never reached (`exists_loop`).
-/

namespace VoxelSwarm

namespace Session

variable {σ : Type} [CommandSource σ] {src src' : σ} {e e' : Session} {mode : RunMode}
  {more : σ → Bool} {attempts : List (Session × σ)} {x : Except StepError Status × Session × σ}

/-- A session takes steps while it runs and `more` asks for them, until one fails. The list has the
session and the source as they are before each step that is attempted. -/
inductive Loop (mode : RunMode) (more : σ → Bool) :
    List (Session × σ) → Session → σ → Except StepError Status × Session × σ → Prop
  | ends {e : Session} {src : σ} (stops : ¬(e.status = .running ∧ more src)) :
    Loop mode more [] e src (.ok e.status, e, src)
  | fails {e e' : Session} {src src' : σ} {cause : StepError}
    (goes : e.status = .running ∧ more src) (step : e.advance mode src = (.error cause, e', src')) :
    Loop mode more [(e, src)] e src (.error cause, e', src')
  | goes {e e₁ : Session} {src src₁ : σ} {status : Status} {attempts : List (Session × σ)}
    {x : Except StepError Status × Session × σ} (goes : e.status = .running ∧ more src)
    (step : e.advance mode src = (.ok status, e₁, src₁))
    (rest : Loop mode more attempts e₁ src₁ x) : Loop mode more ((e, src) :: attempts) e src x

def failures : Except StepError Status → Nat
  | .ok _ => 0
  | .error _ => 1

/-- A step from a trace is attempted while a bot is active. If it succeeds, it has consumed at least
one byte, and if it fails, the run is over. -/
structure Progresses (mode : RunMode) (e : Session) (r : TraceReader) : Prop where
  running : e.status = .running
  active : 0 < e.state.activeCount
  consumes : ∀ status e' r', e.advance mode r = (.ok status, e', r') →
    r'.bytes = r.bytes ∧ r.offset < r'.offset ∧ r'.offset ≤ r.bytes.size
  aborts : ∀ cause e' r', e.advance mode r = (.error cause, e', r') → e'.status = .aborted

theorem Loop.unique {attempts' : List (Session × σ)} {x' : Except StepError Status × Session × σ}
    (h : Loop mode more attempts e src x) (h' : Loop mode more attempts' e src x') :
    attempts = attempts' ∧ x = x' := by
  induction h generalizing attempts' x' with
  | ends stops =>
    cases h' with
    | ends => exact ⟨rfl, rfl⟩
    | fails goes => exact absurd goes stops
    | goes goes => exact absurd goes stops
  | fails goes step =>
    cases h' with
    | ends stops => exact absurd goes stops
    | fails _ step' =>
      cases step.symm.trans step'
      exact ⟨rfl, rfl⟩
    | goes _ step' => cases step.symm.trans step'
  | goes goes step _ ih =>
    cases h' with
    | ends stops => exact absurd goes stops
    | fails _ step' => cases step.symm.trans step'
    | goes _ step' rest' =>
      cases step.symm.trans step'
      obtain ⟨rfl, rfl⟩ := ih rest'
      exact ⟨rfl, rfl⟩

/-! ## The measure -/

theorem remaining_advance (hσ : CommandSource.Spends σ) (hsound : e.Sound)
    (hrunning : e.status = .running) {status : Status}
    (h : e.advance mode src = (.ok status, e', src')) :
    CommandSource.remaining src' < CommandSource.remaining src := by
  obtain ⟨-, report, htakes⟩ := advance_eq_ok hrunning h
  exact htakes.spends hσ hsound

theorem Sound.of_advance (hsound : e.Sound) {result : Except StepError Status}
    (h : e.advance mode src = (result, e', src')) : e'.Sound := by
  have hnext := hsound.advance mode src
  rwa [h] at hnext

/-- There is at most one attempt for each command that the source has, and one that fails when
nothing is left. No step is attempted then without any `slack`. -/
theorem Loop.length_le (h : Loop mode more attempts e src x) (hσ : CommandSource.Spends σ)
    {slack : Nat} (hmore : ∀ src : σ, more src = true → 0 < CommandSource.remaining src + slack)
    (hsound : e.Sound) :
    attempts.length ≤ CommandSource.remaining src + slack * failures x.1 := by
  induction h with
  | ends => exact Nat.zero_le _
  | fails goes _ =>
    rw [failures, Nat.mul_one]
    exact hmore _ goes.2
  | goes goes step _ ih =>
    have hspent := remaining_advance hσ hsound goes.1 step
    have hrest := ih (hsound.of_advance step)
    rw [List.length_cons]
    omega

/-- A bound above what the source has changes nothing: the run ends by itself before. -/
theorem exists_loop (hσ : CommandSource.Spends σ) (mode : RunMode) (more : σ → Bool) {fuel : Nat}
    (hsound : e.Sound) (hfuel : CommandSource.remaining src < fuel) :
    ∃ attempts, Loop mode more attempts e src (drive mode more fuel e src) := by
  induction fuel generalizing e src with
  | zero => exact absurd hfuel (Nat.not_lt_zero _)
  | succ fuel ih =>
    rw [drive]
    split
    · next goes =>
      cases hstep : e.advance mode src with
      | mk result after =>
      cases result with
      | error cause => exact ⟨_, .fails goes hstep⟩
      | ok status =>
        have hspent := remaining_advance hσ hsound goes.1 hstep
        have hleft := Nat.lt_of_lt_of_le hspent (Nat.le_of_lt_succ hfuel)
        obtain ⟨attempts, hloop⟩ := ih (hsound.of_advance hstep) hleft
        exact ⟨_, .goes goes hstep hloop⟩
    · next stops => exact ⟨[], .ends stops⟩

/-! ## Runs of a trace -/

theorem Sound.progresses (hsound : e.Sound) (hrunning : e.status = .running) (mode : RunMode)
    (r : TraceReader) : Progresses mode e r where
  running := hrunning
  active := hsound.orderly.activeCount_pos (hsound.running hrunning)
  consumes status e' r' hstep := by
    have hspent := remaining_advance TraceReader.spends hsound hrunning hstep
    obtain ⟨-, report, htakes⟩ := advance_eq_ok hrunning hstep
    have hbefore := e.state.before_runStep e.rules r
    rw [htakes.step] at hbefore
    obtain ⟨k, hk, rfl⟩ := hbefore
    simp only [CommandSource.remaining, TraceReader.remaining, TraceReader.forward] at hspent hk ⊢
    exact ⟨trivial, by omega, by omega⟩
  aborts cause e' r' hstep := (advance_eq_error hstep).status

theorem Loop.progresses {more : TraceReader → Bool} {attempts : List (Session × TraceReader)}
    {r : TraceReader} {x : Except StepError Status × Session × TraceReader}
    (h : Loop mode more attempts e r x) (hsound : e.Sound) :
    ∀ a ∈ attempts, Progresses mode a.1 a.2 := by
  induction h with
  | ends => exact fun _ ha => nomatch ha
  | fails goes _ =>
    rw [List.forall_mem_singleton]
    exact hsound.progresses goes.1 mode _
  | goes goes step _ ih =>
    rw [List.forall_mem_cons]
    exact ⟨hsound.progresses goes.1 mode _, ih (hsound.of_advance step)⟩

/-- Whatever has been done to a session, it comes to the end of any trace and of any list. A run of
the trace attempts at most one step for each byte that is left, and one that fails; somebody is
active before each of them, and each consumes a byte or ends the run. A run of a list attempts no
more steps than there are commands. -/
theorem runs_terminate (h : Reachable e) (r : TraceReader) (cs : List Command) :
    (e.status = .aborted → ({ e with trace := r } : Session).runFull =
      (.error (.notRunning .aborted), { e with trace := r })) ∧
    (e.status ≠ .aborted → ∃ attempts x,
      Loop .auto (fun _ => true) attempts { e with trace := r } r x ∧
        ({ e with trace := r } : Session).runFull = settle x ∧
        attempts.length ≤ r.bytes.size - r.offset + failures x.1 ∧
        ∀ a ∈ attempts, Progresses .auto a.1 a.2) ∧
    ∃ attempts x,
      Loop .interactive (fun l : CommandList => !l.exhausted) attempts e (.ofList cs) x ∧
        e.runCommands cs = (x.1, x.2.1) ∧ attempts.length ≤ cs.length := by
  have hsound : ({ e with trace := r } : Session).Sound :=
    ⟨h.sound.orderly, h.sound.running, h.sound.staged⟩
  refine ⟨fun haborted => ?_, fun haborted => ?_, ?_⟩
  · rw [runFull, if_pos (show ({ e with trace := r } : Session).status = .aborted from haborted)]
  · obtain ⟨attempts, hloop⟩ := exists_loop TraceReader.spends .auto (fun _ => true) hsound
      (Nat.lt_succ_self r.remaining)
    have hmore : ∀ r : TraceReader, true = true → 0 < CommandSource.remaining r + 1 :=
      fun _ _ => Nat.succ_pos _
    have hlength := hloop.length_le TraceReader.spends hmore hsound
    rw [Nat.one_mul] at hlength
    exact ⟨attempts, _, hloop, runFull_eq haborted, hlength, hloop.progresses hsound⟩
  · have hmore : ∀ l : CommandList, (!l.exhausted) = true → 0 < CommandSource.remaining l + 0 := by
      intro l hl
      refine List.length_pos_iff.2 fun hnil => ?_
      simp [CommandList.exhausted, hnil] at hl
    have hfuel : CommandSource.remaining (CommandList.ofList cs) < cs.length + 1 :=
      Nat.lt_succ_self cs.length
    obtain ⟨attempts, hloop⟩ := exists_loop CommandList.spends .interactive
      (fun l : CommandList => !l.exhausted) h.sound hfuel
    have hlength := hloop.length_le CommandList.spends hmore h.sound
    rw [Nat.zero_mul] at hlength
    exact ⟨attempts, _, hloop, rfl, hlength⟩

/-- A trace of one byte that says to wait is good for one step and one that fails, a list with that
command for one step. -/
theorem runs_terminate_clearing :
    (∃ attempts x, Loop .auto (fun _ => true) attempts
        { clearing with trace := .ofBytes [254] } (TraceReader.ofBytes [254]) x ∧
      attempts.length ≤ 1 + failures x.1) ∧
    ∃ attempts x, Loop .interactive (fun l : CommandList => !l.exhausted) attempts clearing
      (CommandList.ofList [.wait]) x ∧ attempts.length ≤ 1 := by
  have hruns := runs_terminate reachable_clearing (.ofBytes [254]) [.wait]
  obtain ⟨attempts, x, hloop, -, hlength, -⟩ := hruns.2.1 (by simp [clearing, ofState])
  obtain ⟨attempts', x', hloop', -, hlength'⟩ := hruns.2.2
  exact ⟨⟨attempts, x, hloop, hlength⟩, attempts', x', hloop', hlength'⟩

end Session

end VoxelSwarm
