import VoxelSwarm.Proofs.Session.Resume
import VoxelSwarm.Proofs.Step.Halting

/-!
# Grading a trace in two goes

A run with a limit leaves a snapshot whether it has failed or not, and files that keep what is
written to them give it back (`load_saveSnapshot`). If all steps of that run went well, or if the
last one has left matter floating, then what fails in one go fails in two (`resume_fails`). The
snapshot of a run that has failed for another reason holds the state before the step that failed and
an offset after its commands; whoever goes on from there leaves the step out, and may well halt
(`resume_halts`).
-/

namespace VoxelSwarm

namespace CommandLine

open Session (Underway RunsAlike)

variable {source target : Option Matrix} {rules : Rules} {start resumed : Start} {a b : Arguments}
  {trace : List UInt8} {e : Session} {cause : SessionError}

/-! ## What a run starts from -/

namespace Start

@[simp] theorem state_equip (start : Start) (a : Arguments) (trace : List UInt8) :
    (start.equip a trace).session.state = start.session.state := by
  unfold equip
  dsimp only
  split <;> rfl

@[simp] theorem rules_equip (start : Start) (a : Arguments) (trace : List UInt8) :
    (start.equip a trace).session.rules = start.session.rules := by
  unfold equip
  dsimp only
  split <;> rfl

@[simp] theorem status_equip (start : Start) (a : Arguments) (trace : List UInt8) :
    (start.equip a trace).session.status = start.session.status := by
  unfold equip
  dsimp only
  split <;> rfl

@[simp] theorem stepCount_equip (start : Start) (a : Arguments) (trace : List UInt8) :
    (start.equip a trace).session.stepCount = start.session.stepCount := by
  unfold equip
  dsimp only
  split <;> rfl

@[simp] theorem trace_equip (start : Start) (a : Arguments) (trace : List UInt8) :
    (start.equip a trace).session.trace = .ofBytes (trace.drop start.traceOffset) := by
  unfold equip
  dsimp only
  split <;> rfl

@[simp] theorem staged_equip (start : Start) (a : Arguments) (trace : List UInt8) :
    (start.equip a trace).session.staged = Plan.empty := by
  unfold equip
  dsimp only
  split <;> rfl

/-- The snapshot that is saved when a run has ended in a given session. -/
def snapshot (start : Start) (e : Session) : Snapshot :=
  ⟨start.traceOffset + e.trace.offset, start.steps + e.stepCount, e.state⟩

theorem fresh_eq_ok (h : Start.fresh source target rules = .ok start) :
    ∃ m m', start = ⟨.ofState (State.start m m') rules, 0, 0⟩ := by
  unfold fresh at h
  split at h
  · cases h
  · next e hcreate =>
    obtain ⟨m, m', rfl⟩ := Session.exists_start_of_create hcreate
    exact ⟨m, m', (Except.ok.inj h).symm⟩

theorem resume_eq_ok_iff {s : Snapshot} :
    start.resume s trace = .ok resumed ↔
      s.traceOffset ≤ trace.length ∧ s.state.checkWellFormed = .ok () ∧
        resumed = ⟨start.session.restored s.state, s.traceOffset, s.steps⟩ := by
  unfold resume
  split
  · next hlt => exact ⟨fun h => (nomatch h), fun h => absurd hlt (Nat.not_lt.2 h.1)⟩
  · next hle =>
    rw [Session.setState_eq]
    cases s.state.checkWellFormed with
    | error cause => exact ⟨fun h => (nomatch h), fun h => (nomatch h.2.1)⟩
    | ok _ =>
      exact ⟨fun h => ⟨Nat.not_lt.1 hle, rfl, (Except.ok.inj h).symm⟩,
        fun h => congrArg Except.ok h.2.2.symm⟩

theorem sound_equip (h : start.session.Sound) (a : Arguments) (trace : List UInt8) :
    (start.equip a trace).session.Sound where
  orderly := by
    rw [state_equip]
    exact h.orderly
  running hrunning := by
    rw [status_equip] at hrunning
    rw [state_equip]
    exact h.running hrunning
  staged := Session.staged_empty _ (staged_equip ..)

theorem underway_equip (h : Start.fresh source target rules = .ok start) (a : Arguments)
    (trace : List UInt8) : Underway trace (start.equip a trace).session := by
  obtain ⟨m, m', rfl⟩ := fresh_eq_ok h
  refine ⟨sound_equip ⟨State.orderly_start m m', fun _ => rfl, Session.staged_empty _ rfl⟩ a trace,
    ?_, ?_, ?_⟩
  · rw [status_equip, state_equip]
    rfl
  · rw [trace_equip]
    exact .refl _
  · rw [stepCount_equip]
    exact Nat.zero_le _

end Start

/-! ## What is saved is loaded -/

section

variable {m : Type → Type} [Monad m]

/-- After a write that has gone well, a read finds what has been written. -/
def Files.Keeps (files : Files m) (path : String) : Prop :=
  ∀ bytes : List UInt8,
    (do match ← files.write path bytes with
        | .error cause => return Sum.inl cause
        | .ok () => return Sum.inr (← files.read path)) =
      do match ← files.write path bytes with
        | .error cause => return Sum.inl cause
        | .ok () => return Sum.inr (.ok bytes)

/-- The snapshot that is loaded when a read comes out in some way. -/
def loaded (path : String) : Except String (List UInt8) → Except GradeError Snapshot
  | .error cause => .error (.readSnapshot path cause)
  | .ok bytes =>
    match Utf8.decode bytes with
    | none => .error (.readSnapshot path "stream did not contain valid UTF-8")
    | some text => (Snapshot.decode text).mapError (.decodeSnapshot path)

theorem loaded_encode (path : String) {s : Snapshot} (h : s.Storable) :
    loaded path (.ok (Utf8.encode (s.encode ++ "\n"))) = .ok s := by
  have hblank : ∀ c ∈ ['\n'], Blank.holds c = true := List.forall_mem_singleton.2 (by decide)
  have hpadded := Snapshot.decode_padded h (List.forall_mem_nil _) hblank
  have hdecode : Snapshot.decode (s.encode ++ "\n") = .ok s := by simpa using hpadded
  simp only [loaded, Utf8.decode_encode, hdecode]
  rfl

variable [LawfulMonad m] (files : Files m) {path : String}

theorem loadSnapshot_eq (path : String) :
    (files.loadSnapshot path).run = loaded path <$> files.read path := by
  have hlift (x : m (Except String String)) :
      (liftM x : ExceptT GradeError m (Except String String)) = ExceptT.lift x := rfl
  simp only [Files.loadSnapshot, Files.readText, hlift, ExceptT.run_bind_lift, map_eq_pure_bind,
    bind_assoc]
  refine bind_congr fun found => ?_
  cases found with
  | error cause => simp [loaded]
  | ok bytes =>
    cases htext : Utf8.decode bytes with
    | none => simp [htext, loaded]
    | some text =>
      simp only [htext, loaded, pure_bind]
      cases Snapshot.decode text <;> rfl

theorem saveSnapshot_eq (ha : a.saveSnapshot = some path) (start : Start) (e : Session) :
    (files.saveSnapshot a start e).run =
      (fun written : Except String Unit => written.mapError (.writeSnapshot path)) <$>
        files.write path (Utf8.encode ((start.snapshot e).encode ++ "\n")) := by
  have hlift (x : m (Except String Unit)) :
      (liftM x : ExceptT GradeError m (Except String Unit)) = ExceptT.lift x := rfl
  simp only [Files.saveSnapshot, ha, Start.snapshot, hlift, ExceptT.run_bind_lift]
  rw [map_eq_pure_bind]
  refine bind_congr fun written => ?_
  cases written <;> rfl

/-- A snapshot is loaded from the file that it has been saved in. -/
theorem load_saveSnapshot (hkeeps : files.Keeps path) (ha : a.saveSnapshot = some path)
    (hstorable : (start.snapshot e).Storable) :
    (do files.saveSnapshot a start e; files.loadSnapshot path) =
      (do files.saveSnapshot a start e; return start.snapshot e) := by
  have hlaw := congrArg
    (Sum.elim (fun cause => .error (.writeSnapshot path cause)) (loaded path) <$> ·)
    (hkeeps (Utf8.encode ((start.snapshot e).encode ++ "\n")))
  simp only [map_bind] at hlaw
  refine ExceptT.ext ?_
  rw [ExceptT.run_bind, ExceptT.run_bind, saveSnapshot_eq files ha, bind_map_left, bind_map_left]
  refine Eq.trans (bind_congr fun written => ?_) (hlaw.trans (bind_congr fun written => ?_))
  · cases written with
    | error cause => simp [Except.mapError]
    | ok _ => simp [Except.mapError, loadSnapshot_eq]
  · cases written with
    | error cause => simp [Except.mapError]
    | ok _ => simp [Except.mapError, loaded_encode path hstorable]

end

/-! ## How runs come out -/

theorem runSession_none (e : Session) :
    runSession e none = (e.runFull.1.map fun _ => (), e.runFull.2) := by
  unfold runSession
  rcases e.runFull with ⟨_ | _, _⟩ <;> rfl

theorem runSession_none_eq_error :
    (runSession e none).1 = .error cause ↔ e.runFull.1 = .error cause := by
  rw [runSession_none]
  cases e.runFull.1 <;> simp [Except.map]

theorem status_runSession_ne (hsound : e.Sound) (h : e.runFull.1 = .error cause)
    (limit : Option Nat) : (runSession e limit).2.status ≠ .halted := by
  cases limit with
  | none =>
    rw [runSession_none, Session.runFull_eq_error (Prod.ext h rfl)]
    decide
  | some limit => exact Session.status_takeSteps_ne hsound h

/-- Matter that the last step has left floating keeps the program from going on. -/
theorem checkWellFormed_ne_of_takeSteps {e' : Session} {k n : Nat} (hsound : e.Sound)
    (hsteps : takeSteps k e = (.error (.step (.ungrounded n)), e')) :
    e'.state.checkWellFormed ≠ .ok () := by
  intro hwf
  obtain ⟨j, last, why, hgood, hlast, hwhy⟩ := Session.takeSteps_eq_error hsteps
  obtain rfl : .ungrounded n = why := SessionError.step.inj hwhy
  have hsound' := Session.takeSteps_keeps (I := Session.Sound) (fun h hx => h.sound hx) hgood hsound
  have hfails := Session.runOneStep_eq_error hlast
  obtain ⟨hlow, hfloats⟩ :=
    State.floats_of_runStep hsound'.orderly (hsound'.running hfails.running) hfails.step
  exact hfloats.ne' ((State.checkWellFormed_eq_ok_iff.1 hwf).2 hlow)

/-- If the steps of a run with a limit have succeeded, the run that goes on from its snapshot
becomes what it would have become in one go. -/
theorem runsAlike_of_resume {k : Nat} (hstart : Start.fresh source target rules = .ok start)
    (hsteps : takeSteps k (start.equip a trace).session = (.ok (), e))
    (hresume : start.resume (start.snapshot e) trace = .ok resumed) :
    RunsAlike (start.snapshot e).traceOffset (start.snapshot e).steps
      (start.equip a trace).session.runFull (resumed.equip b trace).session.runFull := by
  have hway := Start.underway_equip hstart a trace
  obtain ⟨-, -, rfl⟩ := Start.resume_eq_ok_iff.1 hresume
  have hrules := (Session.exists_run_of_takeSteps hway.sound hsteps).1
  obtain ⟨m, m', rfl⟩ := Start.fresh_eq_ok hstart
  rw [Start.rules_equip] at hrules
  refine (Session.runFull_of_takeSteps hway.sound hsteps).trans ?_
  rw [Start.snapshot, Nat.zero_add, Nat.zero_add]
  exact (hway.of_takeSteps hsteps).runsAlike ((Start.rules_equip ..).trans hrules.symm)
    (Start.state_equip ..) (Start.status_equip ..) (Start.stepCount_equip ..)
    (Start.trace_equip ..)

/-- A failed run stays one when it goes on from the snapshot of a run with a limit, if the steps of
that run have succeeded or the last one has left matter floating. Saving the snapshot and loading it
again gives the snapshot itself. -/
theorem resume_fails {limit : Nat} {outcome : Except SessionError Unit}
    (hstart : Start.fresh source target rules = .ok start)
    (hwhole : (runSession (start.equip a trace).session none).1 = .error cause)
    (hlimited : runSession (start.equip a trace).session (some limit) = (outcome, e))
    (houtcome : outcome = .ok () ∨ ∃ n, outcome = .error (.step (.ungrounded n)))
    (hstorable : (start.snapshot e).Storable) :
    Snapshot.decode (start.snapshot e).encode = .ok (start.snapshot e) ∧
      (∀ {m : Type → Type} [Monad m] [LawfulMonad m] (files : Files m) (path : String),
        a.saveSnapshot = some path → files.Keeps path →
          (do files.saveSnapshot a start e; files.loadSnapshot path) =
            (do files.saveSnapshot a start e; return start.snapshot e)) ∧
      ∀ resumed, start.resume (start.snapshot e) trace = .ok resumed →
        (∃ why, (runSession (resumed.equip b trace).session none).1 = .error why ∧
          cause = why.shift (start.snapshot e).traceOffset) ∧
        ∀ limit, (runSession (resumed.equip b trace).session limit).2.status ≠ .halted := by
  refine ⟨Snapshot.decode_encode hstorable,
    fun files path ha hkeeps => load_saveSnapshot files hkeeps ha hstorable,
    fun resumed hresume => ?_⟩
  obtain ⟨-, hwf, hresumed⟩ := Start.resume_eq_ok_iff.1 hresume
  rcases houtcome with rfl | ⟨n, rfl⟩
  · have hresult := (runsAlike_of_resume (b := b) hstart hlimited hresume).result
    rw [runSession_none_eq_error.1 hwhole] at hresult
    cases hfull : (resumed.equip b trace).session.runFull.1 with
    | ok energy =>
      rw [hfull] at hresult
      cases hresult
    | error why =>
      rw [hfull] at hresult
      have hsound : resumed.session.Sound := by
        rw [hresumed]
        exact Session.sound_of_setState (Session.setState_eq_ok_iff.2 ⟨hwf, rfl⟩)
      exact ⟨⟨why, runSession_none_eq_error.2 hfull, Except.error.inj hresult⟩,
        status_runSession_ne (Start.sound_equip hsound b trace) hfull⟩
  · have hway := Start.underway_equip hstart a trace
    exact absurd hwf (checkWellFormed_ne_of_takeSteps hway.sound hlimited)

/-! ## Examples -/

def sample : Arguments where
  source := none
  target := some "t.mdl"
  trace := "a.nbt"
  config := none
  logFile := none
  problem := none
  solution := none
  resume := none
  saveSnapshot := some "snap.txt"
  steps := none

def shelf : Files (StateM (String → Option (List UInt8))) where
  read path := do return ((← get) path).elim (.error "no such file") .ok
  write path bytes := do
    modify fun table => Function.update table path (some bytes)
    return .ok ()
  append path bytes := do
    modify fun table => Function.update table path (some ((table path).getD [] ++ bytes))
    return .ok ()
  clock := return 0

theorem shelf_keeps (path : String) : shelf.Keeps path := by
  intro bytes
  refine StateT.ext fun table => ?_
  simp [shelf]

/-- The start of a run in a grid of one voxel. -/
def cell : Start := ⟨.ofState (State.start (Matrix.empty 1) (Matrix.empty 1)) {}, 0, 0⟩

theorem cell_fresh : Start.fresh none (some (Matrix.empty 1)) {} = .ok cell := rfl

theorem cell_state : cell.session.state =
    ⟨Matrix.empty 1, Matrix.empty 1, State.foundingSlots, 0, .low, false⟩ := State.start_eq ..

theorem cell_activeIds : cell.session.state.activeIds = [BotId.first] := by
  rw [cell_state]
  decide +kernel

theorem cell_checkWellFormed : cell.session.state.checkWellFormed = .ok () := by
  rw [cell_state]
  decide +kernel

theorem cell_packable : cell.session.state.Packable :=
  have hempty : (Matrix.empty 1).Storable := ⟨Matrix.Consistent.empty 1, by decide⟩
  State.packable_start hempty hempty

theorem cell_snapshot (e : Session) : cell.snapshot e = e.snapshot := by
  rw [Start.snapshot, cell, Nat.zero_add, Nat.zero_add, Session.snapshot]

/-- After a step in which the bot waits, the trace cannot be read on. Neither can what is left of it
when the run has been interrupted in between. -/
theorem resume_fails_cell :
    (∃ cause, (runSession (cell.equip sample [0xfe, 0xf6]).session none).1 = .error cause) ∧
      ∃ e resumed,
        runSession (cell.equip sample [0xfe, 0xf6]).session (some 1) = (.ok (), e) ∧
          (∀ table, ((do shelf.saveSnapshot sample cell e; shelf.loadSnapshot "snap.txt").run.run
            table).1 = .ok (cell.snapshot e)) ∧
          cell.resume (cell.snapshot e) [0xfe, 0xf6] = .ok resumed ∧
          ∀ limit, (runSession (resumed.equip sample [0xfe, 0xf6]).session limit).2.status ≠
            .halted := by
  have hway := Start.underway_equip cell_fresh sample [0xfe, 0xf6]
  obtain ⟨e, hone, htakes, hstate, htrace⟩ :=
    Session.exists_takes_of_runStep (e := (cell.equip sample [0xfe, 0xf6]).session) rfl
      (State.runStep_alone (c := .wait) cell_activeIds (by rfl) (by decide +kernel) rfl
        (by decide +kernel))
  have hsteps := Session.takeSteps_one hone
  have hlimited : runSession (cell.equip sample [0xfe, 0xf6]).session (some 1) = (.ok (), e) :=
    hsteps
  have hstatus : e.status = .running := htakes.status.trans (by decide +kernel)
  have hcause : (e.state.runStep e.rules e.trace).1 =
      .error (.parse (.illFormed 1 ⟨"FusionS", .near, ⟨2, 0, -1⟩⟩)) := by
    rw [hstate, htrace, htakes.rules]
    decide +kernel
  have hwhole := (Session.runFull_of_takeSteps hway.sound hsteps).result
  rw [Session.runFull_of_runStep hstatus hcause] at hwhole
  -- the state after the step fits a snapshot and can be taken back
  obtain ⟨-, rounds, hrun⟩ := Session.exists_run_of_takeSteps hway.sound hsteps
  have hcoherent := (State.checkWellFormed_eq_ok_iff.1 cell_checkWellFormed).1
  have henergy : e.state.energy = 23 := by
    rw [hstate]
    decide +kernel
  have hstorable : (cell.snapshot e).Storable := by
    rw [cell_snapshot]
    exact (hway.of_takeSteps hsteps).storable_snapshot (by decide)
      ⟨hrun.packable hcoherent cell_packable, by rw [henergy]; decide⟩
  have hle : (cell.snapshot e).traceOffset ≤ [0xfe, 0xf6].length := by
    rw [cell_snapshot]
    exact (hway.of_takeSteps hsteps).before.offset_le
  have hwf : (cell.snapshot e).state.checkWellFormed = .ok () :=
    hrun.wellFormed rfl cell_packable.matrix.consistent cell_checkWellFormed
  have hresume : cell.resume (cell.snapshot e) [0xfe, 0xf6] = .ok _ :=
    Start.resume_eq_ok_iff.2 ⟨hle, hwf, rfl⟩
  have hfails := @resume_fails _ _ _ _ _ sample _ _ _ _ _ cell_fresh
    (runSession_none_eq_error.2 hwhole) hlimited (.inl rfl) hstorable
  refine ⟨⟨_, runSession_none_eq_error.2 hwhole⟩, e, _, hlimited, fun table => ?_, hresume,
    (hfails.2.2 _ hresume).2⟩
  rw [hfails.2.1 shelf "snap.txt" rfl (shelf_keeps _)]
  rfl

/-- The start of a run that goes on with the second byte of a trace. -/
def cellAgain : Start := ⟨cell.session.restored cell.session.state, 1, 0⟩

theorem sound_cellAgain : cellAgain.session.Sound :=
  Session.sound_of_setState (Session.setState_eq_ok_iff.2 ⟨cell_checkWellFormed, rfl⟩)

/-- The one step of the first run fails, and so does the whole. The second run goes on after the
command that could not be read, and halts. -/
theorem resume_halts :
    Start.fresh none (some (Matrix.empty 1)) {} = .ok cell ∧ ∃ why e resumed,
      (runSession (cell.equip sample [0xf6, 0xff]).session none).1 = .error why ∧
        runSession (cell.equip sample [0xf6, 0xff]).session (some 1) = (.error why, e) ∧
        Snapshot.decode (cell.snapshot e).encode = .ok (cell.snapshot e) ∧
        cell.resume (cell.snapshot e) [0xf6, 0xff] = .ok resumed ∧
        (runSession (resumed.equip sample [0xf6, 0xff]).session none).1 = .ok () ∧
        (runSession (resumed.equip sample [0xf6, 0xff]).session none).2.status = .halted := by
  have hcause : ((cell.equip sample [0xf6, 0xff]).session.state.runStep {}
      (cell.equip sample [0xf6, 0xff]).session.trace).1 =
        .error (.parse (.illFormed 0 ⟨"FusionS", .near, ⟨2, 0, -1⟩⟩)) := by
    decide +kernel
  have hwhole := Session.runFull_of_runStep (e := (cell.equip sample [0xf6, 0xff]).session) rfl
    hcause
  obtain ⟨e, hsteps, hfails⟩ :=
    Session.takeSteps_one_of_runStep (e := (cell.equip sample [0xf6, 0xff]).session) rfl hcause
  -- the cursor has moved on, but the state has not
  have hstate : e.state = cell.session.state := by
    rcases State.eq_of_runStep hfails with heq | ⟨n, hfloats⟩
    · exact heq
    · cases hfloats
  have hplace : (takeSteps 1 (cell.equip sample [0xf6, 0xff]).session).2.trace.offset = 1 ∧
      (takeSteps 1 (cell.equip sample [0xf6, 0xff]).session).2.stepCount = 0 := by
    decide +kernel
  rw [hsteps] at hplace
  obtain ⟨hoffset, hcount⟩ := hplace
  have hsnapshot : cell.snapshot e = ⟨1, 0, cell.session.state⟩ := by
    rw [cell_snapshot, Session.snapshot, hstate, hoffset, hcount]
  have hstorable : (cell.snapshot e).Storable := by
    rw [hsnapshot]
    exact ⟨by decide, by decide, cell_packable, by decide⟩
  have hresume : cell.resume (cell.snapshot e) [0xf6, 0xff] = .ok cellAgain := by
    rw [hsnapshot]
    exact Start.resume_eq_ok_iff.2 ⟨by decide, cell_checkWellFormed, rfl⟩
  obtain ⟨last, -, htakes, -, -⟩ :=
    Session.exists_takes_of_runStep (e := (cellAgain.equip sample [0xf6, 0xff]).session) rfl
      (State.runStep_alone (c := .halt) cell_activeIds (by rfl) (by decide +kernel) rfl
        (by decide +kernel))
  have hhalted : last.status = .halted := htakes.status.trans (by decide +kernel)
  have halike := htakes.runFull (Start.sound_equip sound_cellAgain sample [0xf6, 0xff])
  rw [Session.runFull_of_halted hhalted] at halike
  refine ⟨cell_fresh, _, e, _, runSession_none_eq_error.2 hwhole, hsteps,
    Snapshot.decode_encode hstorable, hresume, ?_, ?_⟩
  · rw [runSession_none, halike.result]
    rfl
  · rw [runSession_none, halike.session.status, hhalted]

end CommandLine

end VoxelSwarm
