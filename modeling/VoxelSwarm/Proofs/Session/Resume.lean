import VoxelSwarm.Proofs.Session.Restore
import VoxelSwarm.Proofs.Snapshot.Runs

/-!
# Going on from a snapshot

After any number of single steps that succeed, the state makes sense and fits a snapshot
(`exists_run_of_takeSteps`), and the cursor stands between two steps of the trace (`Underway`). A
session that takes the state from the snapshot and gets the rest of the trace then becomes what the
run would have become without the interruption (`resume_runsAlike`).
-/

namespace VoxelSwarm

open TraceReader (Before)

/-! ## What a step does to cursor and state -/

theorem before_readPlan (ids : List BotId) (plan : Plan) (r : TraceReader) :
    Before r (readPlan ids plan r).2 := by
  induction ids generalizing plan r with
  | nil => exact .refl r
  | cons id ids ih =>
    have hfirst := r.before_next
    rw [readPlan]
    split
    · next r₁ hread =>
      obtain rfl : r.next.2 = r₁ := congrArg Prod.snd hread
      exact hfirst
    · next c r₁ hread =>
      obtain rfl : r.next.2 = r₁ := congrArg Prod.snd hread
      exact hfirst.trans (ih ..)

theorem State.before_runStep (s : State) (rules : Rules) (r : TraceReader) :
    Before r (s.runStep rules r).2.2 := by
  have hplan := before_readPlan s.activeIds Plan.empty r
  rw [runStep]
  split
  · next hread => rwa [hread] at hplan
  · next hread => rwa [hread] at hplan

namespace Session

open CommandLine (takeSteps)

variable {e e' : Session} {s : State} {report : StepReport} {trace : List UInt8} {k : Nat}

/-! ## Sessions on their way -/

/-- The session has come some way into a trace, and no step has failed. -/
structure Underway (trace : List UInt8) (e : Session) : Prop where
  sound : e.Sound
  status : e.status = if e.state.halted then .halted else .running
  before : Before (.ofBytes trace) e.trace
  stepCount : e.stepCount ≤ e.trace.offset

theorem Begins.underway (h : e.Begins) (trace : List UInt8) :
    (e.setTrace trace).Underway trace where
  sound := h.sound trace
  status := h.status
  before := .refl _
  stepCount := h.stepCount.le

theorem Underway.of_takes (h : e.Underway trace) (htakes : e.Takes e.trace report e' e'.trace) :
    e'.Underway trace where
  sound := htakes.sound h.sound
  status := by
    rw [htakes.status, (h.sound.orderly.of_runStep htakes.step).2 report rfl]
  before := by
    have hbefore := e.state.before_runStep e.rules e.trace
    rw [htakes.step] at hbefore
    exact h.before.trans hbefore
  stepCount := by
    have hbefore := e.state.before_runStep e.rules e.trace
    rw [htakes.step] at hbefore
    obtain ⟨n, -, hafter⟩ : Before e.trace e'.trace := hbefore
    have hconsumed := htakes.remaining_lt h.sound
    rw [hafter, TraceReader.remaining_eq, TraceReader.remaining_eq, TraceReader.unread_forward,
      List.length_drop] at hconsumed
    have hcount := h.stepCount
    rw [htakes.stepCount, hafter, TraceReader.offset_forward]
    omega

theorem Underway.of_takeSteps (h : e.Underway trace) (hsteps : takeSteps k e = (.ok (), e')) :
    e'.Underway trace :=
  takeSteps_keeps (fun htakes hway => hway.of_takes htakes) hsteps h

/-- Single steps that succeed are a run, under the rules of the session. -/
theorem exists_run_of_takeSteps (h : e.Sound) (hsteps : takeSteps k e = (.ok (), e')) :
    e'.rules = e.rules ∧ ∃ rounds, State.Run e.rules e.state rounds e'.state := by
  refine (takeSteps_keeps (I := fun x => x.Sound ∧ x.rules = e.rules ∧
    ∃ rounds, State.Run e.rules e.state rounds x.state) ?_ hsteps ⟨h, rfl, [], .nil _⟩).2
  rintro x x' report htakes ⟨hsound, hrules, rounds, hrun⟩
  have hstep := htakes.step
  rw [hrules] at hstep
  obtain ⟨plan, hc⟩ := State.exists_completes_of_runStep hsound.orderly.seated hstep
  exact ⟨htakes.sound hsound, htakes.rules.trans hrules, _, hrun.concat hc⟩

/-! ## Snapshots -/

/-- The snapshot of a session that has had its trace from the first byte on. -/
def snapshot (e : Session) : Snapshot := ⟨e.trace.offset, e.stepCount, e.state⟩

theorem Underway.storable_snapshot (h : e.Underway trace) (hlength : trace.length < 2 ^ 64)
    (hstate : e.state.Storable) : e.snapshot.Storable := by
  have hoffset := h.before.offset_le
  have hcount := h.stepCount
  exact ⟨show e.trace.offset < _ by omega, show e.stepCount < _ by omega, hstate⟩

theorem Underway.runsAlike (h : e.Underway trace) {fresh : Session} (hrules : fresh.rules = e.rules)
    (hstate : fresh.state = e.state)
    (hstatus : fresh.status = if e.state.halted then .halted else .running)
    (hcount : fresh.stepCount = 0) (htrace : fresh.trace = .ofBytes (trace.drop e.trace.offset)) :
    RunsAlike e.trace.offset e.stepCount e.runFull fresh.runFull := by
  refine runFull_runsAlike ⟨hstate.symm, hrules.symm, h.status.trans hstatus.symm, ?_⟩ ?_
  · rw [hcount, Nat.add_zero]
  · rw [htrace]
    exact h.before.ahead

/-- An interrupted run that goes on from its snapshot becomes what it would have become, if floating
matter is looked for at every step. Nothing is lost in the text of the snapshot, as long as the
energy fits its word, and a session with the same rules takes the state back. -/
theorem resume_runsAlike {fresh : Session} (h : e.Begins) (hg : e.rules.grounding = .everyStep)
    (hpack : e.state.Packable) (hlength : trace.length < 2 ^ 64)
    (hsteps : takeSteps k (e.setTrace trace) = (.ok (), e'))
    (henergy : -(2 : Int) ^ 63 ≤ e'.state.energy ∧ e'.state.energy < 2 ^ 63)
    (hrules : fresh.rules = e.rules) :
    Snapshot.decode e'.snapshot.encode = .ok e'.snapshot ∧
      ∃ resumed, fresh.setState e'.snapshot.state = .ok resumed ∧
        RunsAlike e'.snapshot.traceOffset e'.snapshot.steps (e.setTrace trace).runFull
          (resumed.setTrace (trace.drop e'.snapshot.traceOffset)).runFull := by
  have hway := h.underway trace
  have hway' := hway.of_takeSteps hsteps
  obtain ⟨hrules', rounds, hrun⟩ := exists_run_of_takeSteps hway.sound hsteps
  have hcoherent := (State.checkWellFormed_eq_ok_iff.1 h.wellFormed).1
  have hpack' : e'.state.Packable := hrun.packable hcoherent hpack
  have hwf' : e'.state.checkWellFormed = .ok () :=
    hrun.wellFormed hg hpack.matrix.consistent h.wellFormed
  have hset : fresh.setState e'.state = .ok (fresh.restored e'.state) :=
    setState_eq_ok_iff.2 ⟨hwf', rfl⟩
  exact ⟨Snapshot.decode_encode (hway'.storable_snapshot hlength ⟨hpack', henergy⟩), _, hset,
    (runFull_of_takeSteps hway.sound hsteps).trans
      (hway'.runsAlike (hrules.trans hrules'.symm) rfl rfl rfl rfl)⟩

def outset : Session := ofState (.start (Matrix.empty 3) (Matrix.empty 3)) {}

theorem outset_runsAlike :
    ∃ e, takeSteps 1 (outset.setTrace [0xb3, 0xff]) = (.ok (), e) ∧
      Snapshot.decode e.snapshot.encode = .ok e.snapshot ∧
        ∃ resumed, outset.setState e.snapshot.state = .ok resumed ∧
          RunsAlike e.snapshot.traceOffset e.snapshot.steps
            (outset.setTrace [0xb3, 0xff]).runFull
            (resumed.setTrace ([0xb3, 0xff].drop e.snapshot.traceOffset)).runFull := by
  have hstart : outset.state =
      ⟨Matrix.empty 3, Matrix.empty 3, State.foundingSlots, 0, .low, false⟩ := State.start_eq ..
  have hids : outset.state.activeIds = [BotId.first] := by decide +kernel
  have hbegins : outset.Begins := ⟨by rw [hstart]; decide +kernel, rfl, rfl⟩
  have hempty : (Matrix.empty 3).Storable := ⟨Matrix.Consistent.empty 3, by decide⟩
  obtain ⟨e, hone, -, hstate, -⟩ :=
    exists_takes_of_runStep (e := outset.setTrace [0xb3, 0xff]) rfl
      (State.runStep_alone (c := .fill ⟨1, 0, 0⟩) hids (by rfl) (by decide +kernel) rfl
        (by decide +kernel))
  have hsteps := takeSteps_one hone
  have henergy : e.state.energy = 113 := by
    rw [hstate]
    decide +kernel
  exact ⟨e, hsteps, resume_runsAlike hbegins rfl (State.packable_start hempty hempty) (by decide)
    hsteps (by rw [henergy]; decide) rfl⟩

end Session

end VoxelSwarm
