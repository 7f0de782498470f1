import VoxelSwarm.Proofs.Command.Cursor
import VoxelSwarm.Proofs.Session.Reachable
import VoxelSwarm.Proofs.Step.Atomic

/-!
# Runs in what is left of a trace

A run depends on the bytes before its cursor, not on where they stand: from the same state, a
session at byte `n` of a trace and one at the start of the trace that begins there go the same way
(`drive_agree`). Their errors are the same up to a shift of the offsets that they name, and neither
the mode of a run nor its reports and labels matter.

The comparison goes up through the functions that make up a run, from the cursor to `drive`.
-/

namespace VoxelSwarm

/-- The error with its offset, if it has one, counted from `n` bytes earlier. -/
def StepError.shift (n : Nat) : StepError → StepError
  | .parse cause => .parse (cause.shift n)
  | e => e

def SessionError.shift (n : Nat) : SessionError → SessionError
  | .step cause => .step (cause.shift n)
  | e => e

theorem StepError.OfPlan.shift {e : StepError} (h : e.OfPlan) (n : Nat) : e.shift n = e := by
  cases e with
  | parse cause => exact h.elim
  | _ => rfl

/-! ## Steps -/

variable {n m : Nat} {r r' : TraceReader}

open TraceReader (Ahead)

theorem readPlan_ahead (h : Ahead n r r') (ids : List BotId) (plan : Plan) :
    (readPlan ids plan r).1 = (readPlan ids plan r').1.mapError (TraceError.shift n) ∧
      Ahead n (readPlan ids plan r).2 (readPlan ids plan r').2 := by
  induction ids generalizing plan r r' with
  | nil => exact ⟨rfl, h⟩
  | cons id ids ih =>
    obtain ⟨hresult, hnext⟩ := h.next
    cases hread : r'.next with
    | mk result after' =>
    rw [hread] at hresult hnext
    have hread' : r.next = (result.mapError (TraceError.shift n), r.next.2) :=
      Prod.ext hresult rfl
    cases result with
    | error e =>
      simp only [readPlan, CommandSource.next, hread]
      rw [hread']
      exact ⟨rfl, hnext⟩
    | ok c =>
      simp only [readPlan, CommandSource.next, hread]
      rw [hread']
      exact ih hnext (plan.assign id c)

namespace State

theorem resolveStep_shift (s : State) (rules : Rules) (plan : Plan) (ids : List BotId) (n : Nat) :
    (s.resolveStep rules plan ids).1.mapError (StepError.shift n) =
      (s.resolveStep rules plan ids).1 := by
  cases hstep : s.resolveStep rules plan ids with
  | mk result t =>
    rcases resolveStep_cases hstep with ⟨e, hcheck, rfl, -⟩ | ⟨-, -, rfl | ⟨rfl, -⟩⟩
    · exact congrArg Except.error ((ofPlan_of_checkPlan hcheck).shift n)
    · rfl
    · rfl

theorem runStep_ahead (s : State) (rules : Rules) (h : Ahead n r r') :
    (s.runStep rules r).1 = (s.runStep rules r').1.mapError (StepError.shift n) ∧
      (s.runStep rules r).2.1 = (s.runStep rules r').2.1 ∧
      Ahead n (s.runStep rules r).2.2 (s.runStep rules r').2.2 := by
  obtain ⟨hplan, hafter⟩ := readPlan_ahead h s.activeIds Plan.empty
  cases hread : readPlan s.activeIds Plan.empty r' with
  | mk result after' =>
  rw [hread] at hplan hafter
  have hread' : readPlan s.activeIds Plan.empty r =
      (result.mapError (TraceError.shift n), (readPlan s.activeIds Plan.empty r).2) :=
    Prod.ext hplan rfl
  cases result with
  | error e =>
    rw [runStep, runStep, hread, hread']
    exact ⟨rfl, rfl, hafter⟩
  | ok plan =>
    rw [runStep, runStep, hread, hread']
    exact ⟨(resolveStep_shift ..).symm, rfl, hafter⟩

end State

/-! ## Sessions -/

namespace Session

variable {e e' : Session}

/-- Both sessions have come to the same state, the first one with `m` more steps behind it. -/
structure Ahead (m : Nat) (e e' : Session) : Prop where
  state : e.state = e'.state
  rules : e.rules = e'.rules
  status : e.status = e'.status
  stepCount : e.stepCount = m + e'.stepCount

theorem Ahead.refl (e : Session) : Ahead 0 e e := ⟨rfl, rfl, rfl, (Nat.zero_add _).symm⟩

/-- What becomes of two runs, the first one `n` bytes and `m` steps ahead. -/
structure Agree (n m : Nat) (x x' : Except StepError Status × Session × TraceReader) : Prop where
  result : x.1 = x'.1.mapError (StepError.shift n)
  session : Ahead m x.2.1 x'.2.1
  trace : TraceReader.Ahead n x.2.2 x'.2.2

theorem Ahead.publish (h : Ahead m e e') (outcome outcome' : Outcome) :
    Ahead m (e.publish outcome) (e'.publish outcome') where
  state := by rw [state_publish, state_publish, h.state]
  rules := by rw [rules_publish, rules_publish, h.rules]
  status := by rw [status_publish, status_publish, h.status]
  stepCount := by rw [stepCount_publish, stepCount_publish, h.stepCount]

theorem Ahead.conclude (h : Ahead m e e') (n : Nat) (result : Except StepError StepReport) :
    (e.conclude (result.mapError (StepError.shift n))).1 =
        (e'.conclude result).1.mapError (StepError.shift n) ∧
      Ahead m (e.conclude (result.mapError (StepError.shift n))).2 (e'.conclude result).2 := by
  cases result with
  | error cause =>
    have hover : Ahead m { e with status := .aborted } { e' with status := .aborted } :=
      ⟨h.state, h.rules, rfl, h.stepCount⟩
    exact ⟨rfl, hover.publish ..⟩
  | ok report =>
    have hcount : e.stepCount + 1 = m + (e'.stepCount + 1) := by rw [h.stepCount, Nat.add_assoc]
    have hover : Ahead m { e with stepCount := e.stepCount + 1, status := .halted }
        { e' with stepCount := e'.stepCount + 1, status := .halted } :=
      ⟨h.state, h.rules, rfl, hcount⟩
    simp only [Except.mapError, Session.conclude]
    split
    · exact ⟨rfl, hover.publish ..⟩
    · exact ⟨congrArg Except.ok h.status, ⟨h.state, h.rules, h.status, hcount⟩⟩

theorem Ahead.advance (h : Ahead m e e') (hr : TraceReader.Ahead n r r') (mode mode' : RunMode) :
    Agree n m (e.advance mode r) (e'.advance mode' r') := by
  unfold Session.advance
  rw [h.status]
  split
  · exact ⟨rfl, h, hr⟩
  · obtain ⟨hresult, hstate, htrace⟩ := e'.state.runStep_ahead e'.rules hr
    rw [h.state, h.rules]
    cases hstep : e'.state.runStep e'.rules r' with
    | mk result' after' =>
    cases hstep' : e'.state.runStep e'.rules r with
    | mk result after =>
    rw [hstep, hstep'] at hresult hstate htrace
    obtain ⟨t, r₁⟩ := after
    obtain ⟨t', r₁'⟩ := after'
    obtain rfl : result = result'.mapError (StepError.shift n) := hresult
    obtain rfl : t = t' := hstate
    have hbegun : Ahead m { e.beginRun mode with state := t, staged := Plan.empty }
        { e'.beginRun mode' with state := t, staged := Plan.empty } :=
      ⟨rfl, h.rules, h.status, h.stepCount⟩
    obtain ⟨hstatus, hsession⟩ := hbegun.conclude n result'
    exact ⟨hstatus, hsession, htrace⟩

theorem drive_agree (h : Ahead m e e') (hr : TraceReader.Ahead n r r') (mode mode' : RunMode)
    (fuel : Nat) :
    Agree n m (drive mode (fun _ => true) fuel e r) (drive mode' (fun _ => true) fuel e' r') := by
  induction fuel generalizing e e' r r' with
  | zero => exact ⟨congrArg Except.ok h.status, h, hr⟩
  | succ fuel ih =>
    unfold drive
    rw [h.status]
    split
    · have hnext := h.advance hr mode mode'
      cases hstep : e'.advance mode' r' with
      | mk result' after' =>
      cases hstep' : e.advance mode r with
      | mk result after =>
      rw [hstep, hstep'] at hnext
      obtain rfl : result = result'.mapError (StepError.shift n) := hnext.result
      cases result' with
      | error cause => exact ⟨rfl, hnext.session, hnext.trace⟩
      | ok status => exact ih hnext.session hnext.trace
    · exact ⟨rfl, h, hr⟩

/-- What becomes of two sessions that run their traces to the end, the first one `n` bytes and `m`
steps ahead. -/
structure RunsAlike (n m : Nat) (x x' : Except SessionError Int × Session) : Prop where
  result : x.1 = x'.1.mapError (SessionError.shift n)
  session : Ahead m x.2 x'.2
  trace : TraceReader.Ahead n x.2.trace x'.2.trace

/-- What a run to the end gives, and the session that it leaves. -/
def settle : Except StepError Status × Session × TraceReader → Except SessionError Int × Session
  | (.error cause, e, trace) => (.error (.step cause), { e with trace })
  | (.ok _, e, trace) => (.ok e.state.energy, { e with trace })

theorem runFull_eq (h : e.status ≠ .aborted) :
    e.runFull = settle (drive .auto (fun _ => true) (e.trace.remaining + 1) e e.trace) := by
  rw [runFull, if_neg h]
  rcases drive .auto (fun _ => true) (e.trace.remaining + 1) e e.trace with ⟨result, e', trace⟩
  cases result <;> rfl

theorem Agree.settle {x x' : Except StepError Status × Session × TraceReader}
    (h : Agree n m x x') : RunsAlike n m (settle x) (settle x') := by
  obtain ⟨result, e, trace⟩ := x
  obtain ⟨result', e', trace'⟩ := x'
  obtain rfl : result = result'.mapError (StepError.shift n) := h.result
  obtain ⟨hstate, hrules, hstatus, hcount⟩ := h.session
  cases result' with
  | error cause => exact ⟨rfl, ⟨hstate, hrules, hstatus, hcount⟩, h.trace⟩
  | ok status =>
    exact ⟨congrArg (fun s : State => Except.ok s.energy) hstate,
      ⟨hstate, hrules, hstatus, hcount⟩, h.trace⟩

theorem runFull_runsAlike (h : Ahead m e e') (hr : TraceReader.Ahead n e.trace e'.trace) :
    RunsAlike n m e.runFull e'.runFull := by
  by_cases haborted : e.status = .aborted
  · have haborted' : e'.status = .aborted := h.status ▸ haborted
    rw [runFull, runFull, if_pos haborted, if_pos haborted']
    exact ⟨rfl, h, hr⟩
  · have haborted' : e'.status ≠ .aborted := h.status ▸ haborted
    rw [runFull_eq haborted, runFull_eq haborted', ← hr.remaining]
    exact (drive_agree h hr ..).settle

end Session

end VoxelSwarm
