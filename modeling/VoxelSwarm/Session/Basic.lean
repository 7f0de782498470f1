import VoxelSwarm.Session.Report
import VoxelSwarm.Step.Run
import VoxelSwarm.Swarm.WellFormed
import VoxelSwarm.Text.Quoted

/-!
# Sessions

A `Session` holds one state, the trace that drives it and how far it has come. Steps come from the
trace (`runOneStep`, `runFull`), from a list (`runCommands`) or are put together command by command
(`stageCommand`, `commitStagedStep`). A session runs until a step halts or fails; after that nothing
changes its state until a new one is installed with `setState`.

One report is kept for each run of an observed session that has come to its end.
-/

namespace VoxelSwarm

/-- The stages of a session's life. -/
inductive Status where
  | running
  | halted
  /-- A step has failed. -/
  | aborted
  deriving DecidableEq, Repr

def Status.text : Status → String
  | .running => "running"
  | .halted => "halted"
  | .aborted => "aborted"

def Status.name : Status → String
  | .running => "Running"
  | .halted => "Halted"
  | .aborted => "Aborted"

/-- Why a session refuses to do something, or fails to. -/
inductive SessionError where
  | step (cause : StepError)
  /-- Every active bot has a staged command already. -/
  | stepComplete
  | notRunning (status : Status)
  deriving DecidableEq, Repr

namespace SessionError

/-- The class of a failure. -/
def kind : SessionError → ErrorKind
  | .step cause => cause.kind
  | .stepComplete | .notRunning _ => .malfunction

def message : SessionError → String
  | .step cause => cause.message
  | .stepComplete => "every active bot already has a staged command"
  | .notRunning status => "emulator is " ++ status.text

end SessionError

/-- One state, the trace that drives it and how far it has come. -/
structure Session where
  state : State
  rules : Rules
  trace : TraceReader
  status : Status
  stepCount : Nat
  labels : RunLabels
  /-- Whether somebody receives reports. -/
  observed : Bool
  /-- The mode of the run in progress, which is that of its first step. -/
  mode : Option RunMode
  staged : Plan
  /-- The reports received so far. -/
  reports : List RunReport
  deriving DecidableEq

namespace Session

/-- The session about to take its first step from a state. -/
def ofState (s : State) (rules : Rules) : Session where
  state := s
  rules := rules
  trace := .ofBytes []
  status := .running
  stepCount := 0
  labels := {}
  observed := false
  mode := none
  staged := Plan.empty
  reports := []

def create (source target : Option Matrix) (rules : Rules) : Except SetupError Session := do
  return ofState (← State.initial source target) rules

def setTrace (e : Session) (bytes : List UInt8) : Session :=
  { e with trace := .ofBytes bytes, staged := Plan.empty }

/-- Installs a state, if it makes sense. The trace goes on where it was. -/
def setState (e : Session) (s : State) : Except SetupError Session := do
  s.checkWellFormed
  return { e with
    state := s
    status := if s.halted then .halted else .running
    stepCount := 0
    mode := none
    staged := Plan.empty }

def setProblem (e : Session) (name : String) : Session :=
  { e with labels := { e.labels with problem := name } }

def setSolution (e : Session) (name : String) : Session :=
  { e with labels := { e.labels with solution := name } }

/-- Lets somebody receive the reports from now on. -/
def observe (e : Session) : Session := { e with observed := true }

/-- Every active bot has a staged command. -/
def stepIsComplete (e : Session) : Bool := e.staged.size == e.state.activeCount

/-- One line that shows how far a session has come. -/
def text (e : Session) : String :=
  "Emulator \x7b status: " ++ e.status.name ++ ", step_count: " ++ toString e.stepCount ++
    ", energy: " ++ toString e.state.energy ++ ", trace_offset: " ++ toString e.trace.offset ++
    ", labels: RunLabels \x7b problem: " ++ Quoted.encode e.labels.problem ++
    ", solution: " ++ Quoted.encode e.labels.solution ++ " \x7d, .. \x7d"

/-! ## Life of a run -/

/-- The run in progress keeps its mode; a new one takes the given mode. -/
def beginRun (e : Session) (mode : RunMode) : Session :=
  { e with mode := e.mode <|> some mode }

/-- Ends the run in progress with a report. -/
def publish (e : Session) (outcome : Outcome) : Session :=
  match e.mode with
  | none => e
  | some mode =>
    let report : RunReport := ⟨e.labels, mode, e.stepCount, outcome⟩
    { e with mode := none, reports := if e.observed then e.reports ++ [report] else e.reports }

/-- Takes note of how a step went. -/
def conclude (e : Session) : Except StepError StepReport → Except StepError Status × Session
  | .ok report =>
    let e := { e with stepCount := e.stepCount + 1 }
    if report.halted then
      (.ok .halted, { e with status := .halted }.publish (.success e.state.energy))
    else (.ok e.status, e)
  | .error cause =>
    (.error cause, { e with status := .aborted }.publish (.failure cause.kind cause.message))

/-- Takes one step from a source, unless the session is over. -/
def advance {σ : Type} [CommandSource σ] (e : Session) (mode : RunMode) (src : σ) :
    Except StepError Status × Session × σ :=
  if e.status ≠ .running then (.ok e.status, e, src)
  else
    let (result, s, src) := e.state.runStep e.rules src
    let (status, e) := { e.beginRun mode with state := s, staged := Plan.empty }.conclude result
    (status, e, src)

/-- Takes steps while the session runs and `more` asks for them, at most `fuel` of them. A source
gives a step at least one command while a bot is active, so what remains in it, and one step that
finds it empty, is `fuel` enough. -/
def drive {σ : Type} [CommandSource σ] (mode : RunMode) (more : σ → Bool) :
    (fuel : Nat) → Session → σ → Except StepError Status × Session × σ
  | 0, e, src => (.ok e.status, e, src)
  | fuel + 1, e, src =>
    if e.status = .running ∧ more src then
      match e.advance mode src with
      | (.error cause, e, src) => (.error cause, e, src)
      | (.ok _, e, src) => drive mode more fuel e src
    else (.ok e.status, e, src)

/-! ## Steps from a trace or a list -/

def runOneStep (e : Session) : Except StepError Status × Session :=
  let (status, e, trace) := e.advance .interactive e.trace
  (status, { e with trace })

/-- Takes steps from the trace until the session halts, and gives the energy spent. -/
def runFull (e : Session) : Except SessionError Int × Session :=
  if e.status = .aborted then (.error (.notRunning .aborted), e)
  else
    match drive .auto (fun _ => true) (e.trace.remaining + 1) e e.trace with
    | (.error cause, e, trace) => (.error (.step cause), { e with trace })
    | (.ok _, e, trace) => (.ok e.state.energy, { e with trace })

/-- Takes steps from a list of commands until the session halts or the list is used up at the end
of a step. -/
def runCommands (e : Session) (cs : List Command) : Except StepError Status × Session :=
  let (status, e, _) :=
    drive .interactive (fun src => !src.exhausted) (cs.length + 1) e (CommandList.ofList cs)
  (status, e)

/-! ## Steps put together command by command -/

def checkRunning (e : Session) : Except SessionError Unit :=
  if e.status = .running then .ok () else .error (.notRunning e.status)

/-- The first active bot without a staged command. -/
def nextBot (e : Session) : Except SessionError BotId :=
  match e.state.activeIds[e.staged.size]? with
  | some id => .ok id
  | none => .error .stepComplete

/-- Checks a command for a bot: on its own, and its footprint against those of the staged
commands. -/
def checkCommandOf (e : Session) (id : BotId) (c : Command) : Except StepError Unit := do
  c.check.mapError (.invalidCommand id)
  (e.state.checkAlone e.rules id c).mapError (.precondition id c)
  e.state.checkFootprints (e.staged.assign id c) (e.state.activeIds.take (e.staged.size + 1))

/-- Checks a command for the next bot without one. -/
def checkCommand (e : Session) (c : Command) : Except SessionError Unit := do
  e.checkRunning
  let id ← e.nextBot
  (e.checkCommandOf id c).mapError .step

/-- Stages a command for the next bot without one, if it passes the check. -/
def stageCommand (e : Session) (c : Command) : Except SessionError Session := do
  e.checkCommand c
  let id ← e.nextBot
  return { e with staged := e.staged.assign id c }

/-- Takes the staged commands as one step, unless the session is over. -/
def commitStagedStep (e : Session) : Except StepError Status × Session :=
  if e.status ≠ .running then (.ok e.status, e)
  else
    let (result, s) := e.state.resolveStep e.rules e.staged e.state.activeIds
    { e.beginRun .interactive with state := s, staged := Plan.empty }.conclude result

end Session

end VoxelSwarm
