import VoxelSwarm.Proofs.Session.Restore
import VoxelSwarm.Proofs.Step.Guarded

/-!
# Guarded sessions

Whatever is done to a session, no guard reports: every voxel that is read or written is inside the
grid, no bot splits off more seeds than it holds, and no subtraction goes below zero. Operations
keep what this takes (`Intact.perform_eq`), that the bots make sense together and that the matrix is
consistent, so it holds of any sequence of them, also after a step that has failed
(`operations_never_fault`).
-/

namespace VoxelSwarm

theorem State.Orderly.consistent_of_resolveStep {s t : State} {rules : Rules} {plan : Plan}
    {result : Except StepError StepReport} (h : s.Orderly) (hm : s.matrix.Consistent)
    (hl : s.checkPlan rules plan s.activeIds = .ok () → s.Legal rules plan)
    (hstep : s.resolveStep rules plan s.activeIds = (result, t)) : t.matrix.Consistent := by
  rcases resolveStep_cases hstep with ⟨_, -, -, rfl⟩ | ⟨hok, rfl, -⟩
  · exact hm
  · exact (h.midway_self hm (hl hok)).consistent

namespace Guarded

/-! ## Operations -/

def setState (e : Session) (s : State) : Checked SetupError Session := do
  checkWellFormed s
  return e.restored s

def advance {σ : Type} [CommandSource σ] (e : Session) (mode : RunMode) (src : σ) :
    Except Fault (Except StepError Status × Session × σ) := do
  if e.status ≠ .running then return (.ok e.status, e, src)
  else
    let (result, s, src) ← runStep e.state e.rules src
    let (status, e) := { e.beginRun mode with state := s, staged := Plan.empty }.conclude result
    return (status, e, src)

def drive {σ : Type} [CommandSource σ] (mode : RunMode) (more : σ → Bool) :
    (fuel : Nat) → Session → σ → Except Fault (Except StepError Status × Session × σ)
  | 0, e, src => .ok (.ok e.status, e, src)
  | fuel + 1, e, src => do
    if e.status = .running ∧ more src then
      match ← advance e mode src with
      | (.error cause, e, src) => return (.error cause, e, src)
      | (.ok _, e, src) => drive mode more fuel e src
    else return (.ok e.status, e, src)

def runOneStep (e : Session) : Except Fault (Except StepError Status × Session) := do
  let (status, e, trace) ← advance e .interactive e.trace
  return (status, { e with trace })

def runFull (e : Session) : Except Fault (Except SessionError Int × Session) := do
  if e.status = .aborted then return (.error (.notRunning .aborted), e)
  else
    match ← drive .auto (fun _ => true) (e.trace.remaining + 1) e e.trace with
    | (.error cause, e, trace) => return (.error (.step cause), { e with trace })
    | (.ok _, e, trace) => return (.ok e.state.energy, { e with trace })

def runCommands (e : Session) (cs : List Command) :
    Except Fault (Except StepError Status × Session) := do
  let (status, e, _) ←
    drive .interactive (fun src => !src.exhausted) (cs.length + 1) e (CommandList.ofList cs)
  return (status, e)

/-- Checks a command for a bot, whose number among the active ones is that of the staged commands:
on its own, and its footprint against those of the bots up to it. -/
def checkCommandOf (e : Session) (id : BotId) (c : Command) : Checked StepError Unit := do
  plain (c.check.mapError (.invalidCommand id))
  (checkAlone e.state e.rules id c).adapt (.precondition id c)
  ExceptT.lift (within e.staged.size e.state.activeIds.length)
  plain (e.state.checkFootprints (e.staged.assign id c)
    (e.state.activeIds.take (e.staged.size + 1)))

def checkCommand (e : Session) (c : Command) : Checked SessionError Unit := do
  plain e.checkRunning
  let id ← plain e.nextBot
  (checkCommandOf e id c).adapt .step

def stageCommand (e : Session) (c : Command) : Checked SessionError Session := do
  checkCommand e c
  let id ← plain e.nextBot
  return { e with staged := e.staged.assign id c }

def commitStagedStep (e : Session) : Except Fault (Except StepError Status × Session) := do
  if e.status ≠ .running then return (.ok e.status, e)
  else
    let (result, s) ← resolveStep e.state e.rules e.staged e.state.activeIds
    return { e.beginRun .interactive with state := s, staged := Plan.empty }.conclude result

/-- The session after an operation, which is carried out in full even if it is refused or changes
nothing. -/
def perform (e : Session) : Session.Operation → Except Fault Session
  | .setState s => do
    match ← (setState e s).run with
    | .ok e' => return e'
    | .error _ => return e
  | .runOneStep => do return (← runOneStep e).2
  | .runFull => do return (← runFull e).2
  | .runCommands cs => do return (← runCommands e cs).2
  | .checkCommand c => do
    let _ ← (checkCommand e c).run
    return e
  | .stageCommand c => do
    match ← (stageCommand e c).run with
    | .ok e' => return e'
    | .error _ => return e
  | .commitStagedStep => do return (← commitStagedStep e).2
  | op => .ok (op.perform e)

def performAll (e : Session) (ops : List Session.Operation) : Except Fault Session :=
  ops.foldlM perform e

/-! ## No guard reports -/

/-- The bots make sense together and the matrix is consistent. -/
structure Intact (e : Session) : Prop where
  sound : e.Sound
  consistent : e.state.matrix.Consistent

variable {e : Session}

theorem setState_eq {s : State} (hm : s.matrix.Consistent) :
    setState e s = plain (e.setState s) := by
  rw [setState, Session.setState, checkWellFormed_eq hm]
  exact plain_bind fun _ _ => rfl

theorem checkCommandOf_eq (hm : e.state.matrix.Consistent) {id : BotId} (c : Command)
    (hnext : e.nextBot = .ok id) : checkCommandOf e id c = plain (e.checkCommandOf id c) := by
  have hlt := (List.getElem?_eq_some_iff.1 (Session.nextBot_eq_ok hnext)).1
  rw [checkCommandOf, Session.checkCommandOf, checkAlone_eq hm, adapt_plain]
  refine plain_bind fun _ _ => plain_bind fun _ _ => ?_
  exact lift_bind (within_eq hlt) _

theorem checkCommand_eq (hm : e.state.matrix.Consistent) (c : Command) :
    checkCommand e c = plain (e.checkCommand c) := by
  rw [checkCommand, Session.checkCommand]
  refine plain_bind fun _ _ => plain_bind fun id hnext => ?_
  rw [checkCommandOf_eq hm c hnext, adapt_plain]

theorem stageCommand_eq (hm : e.state.matrix.Consistent) (c : Command) :
    stageCommand e c = plain (e.stageCommand c) := by
  rw [stageCommand, Session.stageCommand, checkCommand_eq hm]
  exact plain_bind fun _ _ => plain_bind fun _ _ => rfl

theorem advance_eq {σ : Type} [CommandSource σ] (h : Intact e) (mode : RunMode) (src : σ) :
    advance e mode src = .ok (e.advance mode src) := by
  rw [advance, Session.advance, runStep_eq h.sound.orderly.arranged h.consistent]
  by_cases hrunning : e.status = .running
  · rw [if_neg (not_not.2 hrunning), if_neg (not_not.2 hrunning)]
    rfl
  · rw [if_pos hrunning, if_pos hrunning]
    rfl

theorem Intact.advance {σ : Type} [CommandSource σ] (h : Intact e) (mode : RunMode) (src : σ) :
    Intact (e.advance mode src).2.1 := by
  refine ⟨h.sound.advance mode src, ?_⟩
  rw [Session.advance]
  split
  · exact h.consistent
  · cases hstep : e.state.runStep e.rules src with
    | mk result after =>
    simp only [Session.state_conclude]
    exact (State.Attempts.step hstep (.none _)).consistent h.sound.orderly h.consistent

theorem drive_eq {σ : Type} [CommandSource σ] (h : Intact e) (mode : RunMode) (more : σ → Bool)
    (fuel : Nat) (src : σ) :
    drive mode more fuel e src = .ok (Session.drive mode more fuel e src) ∧
      Intact (Session.drive mode more fuel e src).2.1 := by
  induction fuel generalizing e src with
  | zero => exact ⟨rfl, h⟩
  | succ fuel ih =>
    rw [drive, Session.drive]
    by_cases hmore : e.status = .running ∧ more src = true
    · have hnext := h.advance mode src
      rw [if_pos hmore, if_pos hmore, advance_eq h]
      cases hadvance : e.advance mode src with
      | mk result after =>
      rw [hadvance] at hnext
      cases result with
      | error cause => exact ⟨rfl, hnext⟩
      | ok _ => exact ih hnext _
    · rw [if_neg hmore, if_neg hmore]
      exact ⟨rfl, h⟩

theorem runOneStep_eq (h : Intact e) : runOneStep e = .ok e.runOneStep := by
  rw [runOneStep, advance_eq h]
  rfl

theorem runFull_eq (h : Intact e) : runFull e = .ok e.runFull ∧ Intact e.runFull.2 := by
  obtain ⟨hok, hnext⟩ := drive_eq h .auto (fun _ => true) (e.trace.remaining + 1) e.trace
  rw [runFull, Session.runFull]
  by_cases haborted : e.status = .aborted
  · rw [if_pos haborted, if_pos haborted]
    exact ⟨rfl, h⟩
  · rw [if_neg haborted, if_neg haborted, hok]
    cases hdrive : Session.drive .auto (fun _ => true) (e.trace.remaining + 1) e e.trace with
    | mk result after =>
    rw [hdrive] at hnext
    cases result <;> exact ⟨rfl, ⟨hnext.sound.orderly, hnext.sound.running, hnext.sound.staged⟩,
      hnext.consistent⟩

theorem runCommands_eq (h : Intact e) (cs : List Command) :
    runCommands e cs = .ok (e.runCommands cs) ∧ Intact (e.runCommands cs).2 := by
  obtain ⟨hok, hnext⟩ := drive_eq h .interactive (fun src : CommandList => !src.exhausted)
    (cs.length + 1) (CommandList.ofList cs)
  rw [runCommands, hok]
  exact ⟨rfl, hnext⟩

theorem commitStagedStep_eq (h : Intact e) :
    commitStagedStep e = .ok e.commitStagedStep ∧ Intact e.commitStagedStep.2 := by
  have hl (hok : e.state.checkPlan e.rules e.staged e.state.activeIds = .ok ()) :=
    State.legal_of_checkPlan h.sound.orderly.seated h.sound.staged hok
  refine ⟨?_, h.sound.commitStagedStep, ?_⟩
  · rw [commitStagedStep, Session.commitStagedStep,
      resolveStep_eq h.sound.orderly.arranged h.consistent hl]
    by_cases hrunning : e.status = .running
    · rw [if_neg (not_not.2 hrunning), if_neg (not_not.2 hrunning)]
      rfl
    · rw [if_pos hrunning, if_pos hrunning]
      rfl
  · rw [Session.commitStagedStep]
    split
    · exact h.consistent
    · cases hstep : e.state.resolveStep e.rules e.staged e.state.activeIds with
      | mk result after =>
      simp only [Session.state_conclude]
      exact h.sound.orderly.consistent_of_resolveStep h.consistent hl hstep

/-- Whatever is done to a session next, if a state that is installed has a consistent matrix. -/
theorem Intact.perform_eq (h : Intact e) (op : Session.Operation)
    (hop : ∀ s, op = .setState s → s.matrix.Consistent) :
    perform e op = .ok (op.perform e) ∧ (op.perform e).state.matrix.Consistent := by
  cases op with
  | setTrace | setProblem | setSolution | observe => exact ⟨rfl, h.consistent⟩
  | setState s =>
    have hm := hop s rfl
    simp only [perform, setState_eq hm, run_plain, Session.Operation.perform]
    cases hset : e.setState s with
    | error why => exact ⟨rfl, h.consistent⟩
    | ok e' =>
      obtain ⟨-, rfl⟩ := Session.setState_eq_ok_iff.1 hset
      exact ⟨rfl, hm⟩
  | runOneStep =>
    simp only [perform, runOneStep_eq h]
    exact ⟨rfl, (h.advance .interactive e.trace).consistent⟩
  | runFull =>
    obtain ⟨hok, hnext⟩ := runFull_eq h
    simp only [perform, hok]
    exact ⟨rfl, hnext.consistent⟩
  | runCommands cs =>
    obtain ⟨hok, hnext⟩ := runCommands_eq h cs
    simp only [perform, hok]
    exact ⟨rfl, hnext.consistent⟩
  | checkCommand c =>
    simp only [perform, checkCommand_eq h.consistent, run_plain]
    exact ⟨rfl, h.consistent⟩
  | stageCommand c =>
    simp only [perform, stageCommand_eq h.consistent, run_plain, Session.Operation.perform]
    cases hstage : e.stageCommand c with
    | error why => exact ⟨rfl, h.consistent⟩
    | ok e' =>
      obtain ⟨-, id, -, rfl⟩ := Session.stageCommand_eq_ok hstage
      exact ⟨rfl, h.consistent⟩
  | commitStagedStep =>
    obtain ⟨hok, hnext⟩ := commitStagedStep_eq h
    simp only [perform, hok]
    exact ⟨rfl, hnext.consistent⟩

theorem intact_of_create {source target : Option Matrix} {rules : Rules}
    (hsource : ∀ m ∈ source, m.Consistent) (h : Session.create source target rules = .ok e) :
    Intact e := by
  obtain ⟨s, hinitial, rfl⟩ := Session.exists_initial_of_create h
  exact ⟨Session.sound_of_create h, State.consistent_of_initial hsource hinitial⟩

/-- A session starts from any models and is given any operations in any order. No guard reports in
any of them, and they do what they do without guards. -/
theorem operations_never_fault {source target : Option Matrix} {rules : Rules}
    (hsource : ∀ m ∈ source, m.Consistent) (hcreate : Session.create source target rules = .ok e)
    (ops : List Session.Operation) (hops : ∀ s, .setState s ∈ ops → s.matrix.Consistent) :
    performAll e ops = .ok (ops.foldl (fun e op => op.perform e) e) := by
  refine (foldlM_eq_foldl (f := perform)
    (I := fun ops e => Intact e ∧ ∀ s, .setState s ∈ ops → s.matrix.Consistent)
    (fun {op ops e} hI => ?_) ⟨intact_of_create hsource hcreate, hops⟩).1
  obtain ⟨hintact, hops⟩ := hI
  obtain ⟨hok, hm⟩ := hintact.perform_eq op fun s hs => hops s (hs ▸ List.mem_cons_self)
  exact ⟨hok, ⟨hintact.sound.perform op, hm⟩, fun s hs => hops s (List.mem_cons_of_mem _ hs)⟩

def buried : Matrix := (Matrix.empty 1).set Position.origin true

/-- Steps and commands that fail, and one step of the four bots in between. -/
def visits : List Session.Operation :=
  [.runCommands [.void ⟨0, 1, 0⟩], .setState State.crew, .runCommands State.crewCommands,
    .stageCommand (.gfill ⟨0, 1, 0⟩ ⟨-9, 0, 0⟩), .setTrace [0], .runFull, .commitStagedStep]

theorem operations_never_fault_visits :
    (∀ m ∈ some buried, m.Consistent) ∧
      Session.create (some buried) none {} =
        .ok (.ofState (.start buried (Matrix.empty 1)) {}) ∧
      (∀ s, .setState s ∈ visits → s.matrix.Consistent) ∧
      performAll (.ofState (.start buried (Matrix.empty 1)) {}) visits =
        .ok (visits.foldl (fun e op => op.perform e)
          (.ofState (.start buried (Matrix.empty 1)) {})) := by
  have hsource : ∀ m ∈ some buried, m.Consistent := by
    rintro m ⟨⟩
    exact (Matrix.Consistent.empty 1).set Position.origin true
  have hcreate : Session.create (some buried) none {} =
      .ok (.ofState (.start buried (Matrix.empty 1)) {}) := rfl
  have hvisits : ∀ s, .setState s ∈ visits → s.matrix.Consistent := by
    intro s hs
    obtain rfl : s = State.crew := by simpa [visits] using hs
    exact Matrix.Consistent.empty 3
  exact ⟨hsource, hcreate, hvisits, operations_never_fault hsource hcreate visits hvisits⟩

end Guarded

end VoxelSwarm
