import VoxelSwarm.CommandLine.Arguments
import VoxelSwarm.CommandLine.Path
import VoxelSwarm.Configuration.Toml
import VoxelSwarm.Session.Basic
import VoxelSwarm.Snapshot.Basic

/-!
# Grading a trace

The command line program: it reads the models, the trace and perhaps a snapshot, lets a session take
its steps, and reports. Files are reached through `Files`, so that the program runs on real files
and on a table of texts alike.
-/

namespace VoxelSwarm.CommandLine

/-- Access to files. What goes wrong comes as the text of the cause. -/
structure Files (m : Type → Type) where
  read : String → m (Except String (List UInt8))
  write : String → List UInt8 → m (Except String Unit)
  append : String → List UInt8 → m (Except String Unit)
  /-- The time in nanoseconds since some fixed moment. -/
  clock : m Nat

/-- Why a trace could not be graded, or did not pass. -/
inductive GradeError where
  | readConfig (path cause : String)
  | parseConfig
  | readModel (path cause : String)
  | parseModel (path : String) (cause : ModelError)
  | readTrace (path cause : String)
  | incompatibleModels (cause : SetupError)
  | readSnapshot (path cause : String)
  | decodeSnapshot (path : String) (cause : SnapshotError)
  | resumesPastEnd (offset length : Nat)
  | invalidState (cause : SetupError)
  | traceFailed (cause : SessionError)
  | writeSnapshot (path cause : String)

namespace GradeError

def message : GradeError → String
  | .readConfig path _ => "failed to read config at " ++ path
  | .parseConfig => "failed to parse emulator config toml contents"
  | .readModel path _ => "failed to read model at " ++ path
  | .parseModel path _ => "failed to parse model at " ++ path
  | .readTrace path _ => "failed to read trace at " ++ path
  | .incompatibleModels _ => "source and target models are incompatible"
  | .readSnapshot path _ => "failed to read snapshot at " ++ path
  | .decodeSnapshot path _ => "failed to decode snapshot at " ++ path
  | .resumesPastEnd offset length =>
    "snapshot resumes at byte " ++ toString offset ++ " but the trace is only " ++
      toString length ++ " bytes long"
  | .invalidState _ => "snapshot holds an invalid state"
  | .traceFailed _ => "trace failed"
  | .writeSnapshot path _ => "failed to write snapshot to " ++ path

/-- The deeper causes of a failed step, after its own text. -/
def stepCauses : SessionError → List String
  | .step (.parse (.illFormed _ cause)) => [cause.message]
  | .step (.invalidCommand _ cause) => [cause.message]
  | .step (.precondition _ _ cause) => [cause.message]
  | _ => []

/-- The causes of the error, each one that of the text before it. -/
def causes : GradeError → List String
  | .readConfig _ cause | .readModel _ cause | .readTrace _ cause | .readSnapshot _ cause
  | .writeSnapshot _ cause => [cause]
  | .parseModel _ cause => [cause.message]
  | .incompatibleModels cause | .invalidState cause => [cause.message]
  | .decodeSnapshot _ cause => cause.message :: cause.cause?.toList
  | .traceFailed cause => cause.message :: stepCauses cause
  | .parseConfig | .resumesPastEnd _ _ => []

/-- A text whose further lines are indented. -/
def indented (blanks : String) (text : String) : String :=
  ("\n" ++ blanks).intercalate (text.splitOn "\n")

/-- Causes with their numbers. -/
def numbered (causes : List String) : String :=
  String.join (causes.zipIdx.map fun (cause, i) =>
    "    " ++ toString i ++ ": " ++ indented "       " cause ++ "\n")

def report (e : GradeError) : String :=
  "Error: " ++ e.message ++ "\n" ++
    match e.causes with
    | [] => ""
    | [cause] => "\nCaused by:\n    " ++ indented "    " cause ++ "\n"
    | causes => "\nCaused by:\n" ++ numbered causes

end GradeError

/-- What a program leaves behind, apart from files. -/
structure Output where
  code : Nat
  stdout : String
  stderr : String
  deriving DecidableEq, Repr

/-! ## What a run starts from -/

section

variable {m : Type → Type} [Monad m]

def Files.readText (files : Files m) (path : String) : m (Except String String) := do
  match ← files.read path with
  | .error cause => return .error cause
  | .ok bytes =>
    match Utf8.decode bytes with
    | none => return .error "stream did not contain valid UTF-8"
    | some text => return .ok text

def Files.loadRules (files : Files m) (path : String) : ExceptT GradeError m Rules := do
  match ← files.readText path with
  | .error cause => throw (.readConfig path cause)
  | .ok text =>
    match Toml.rules? text with
    | none => throw .parseConfig
    | some rules => return rules

def Files.loadModel (files : Files m) (path : String) : ExceptT GradeError m Matrix := do
  match ← files.read path with
  | .error cause => throw (.readModel path cause)
  | .ok bytes =>
    match Matrix.parse bytes with
    | .error cause => throw (.parseModel path cause)
    | .ok model => return model

def Files.loadModel? (files : Files m) (path : Option String) :
    ExceptT GradeError m (Option Matrix) :=
  match path with
  | none => return none
  | some path => return some (← files.loadModel path)

def Files.loadTrace (files : Files m) (path : String) : ExceptT GradeError m (List UInt8) := do
  match ← files.read path with
  | .error cause => throw (.readTrace path cause)
  | .ok bytes => return bytes

def Files.loadSnapshot (files : Files m) (path : String) : ExceptT GradeError m Snapshot := do
  match ← files.readText path with
  | .error cause => throw (.readSnapshot path cause)
  | .ok text =>
    match Snapshot.decode text with
    | .error cause => throw (.decodeSnapshot path cause)
    | .ok snapshot => return snapshot

/-- A session, with the offset of its trace in the whole trace and the steps taken before it. -/
structure Start where
  session : Session
  traceOffset : Nat
  steps : Nat

/-- The session that starts from the models. -/
def Start.fresh (source target : Option Matrix) (rules : Rules) : Except GradeError Start :=
  match Session.create source target rules with
  | .error cause => .error (.incompatibleModels cause)
  | .ok session => .ok ⟨session, 0, 0⟩

/-- The session that goes on from a snapshot. -/
def Start.resume (start : Start) (snapshot : Snapshot) (trace : List UInt8) :
    Except GradeError Start :=
  if trace.length < snapshot.traceOffset then
    .error (.resumesPastEnd snapshot.traceOffset trace.length)
  else
    match start.session.setState snapshot.state with
    | .error cause => .error (.invalidState cause)
    | .ok session => .ok ⟨session, snapshot.traceOffset, snapshot.steps⟩

/-- The session with its trace and labels set, watched if a log is kept. -/
def Start.equip (start : Start) (a : Arguments) (trace : List UInt8) : Start :=
  let problem := a.problem.getD (((a.target <|> a.source).map Path.stem).getD "")
  let solution := a.solution.getD (Path.stem a.trace)
  let session := start.session.setTrace (trace.drop start.traceOffset)
  let session := (session.setProblem problem).setSolution solution
  { start with session := if a.logFile.isSome then session.observe else session }

/-- Reads everything that a run starts from. -/
def Files.prepare (files : Files m) (a : Arguments) : ExceptT GradeError m Start := do
  let rules ← match a.config with
    | none => pure {}
    | some path => files.loadRules path
  let source ← files.loadModel? a.source
  let target ← files.loadModel? a.target
  let trace ← files.loadTrace a.trace
  let start ← ExceptT.mk (pure (Start.fresh source target rules))
  let start ← match a.resume with
    | none => pure start
    | some path => do
      let snapshot ← files.loadSnapshot path
      ExceptT.mk (pure (start.resume snapshot trace))
  return start.equip a trace

/-! ## The run and what it leaves -/

/-- Takes single steps until the session halts or fails, at most as many as asked for. Every step
takes a byte of the trace or ends the session, so what remains of the trace, and one step more, is
`fuel` enough. -/
def takeSteps : (fuel : Nat) → Session → Except SessionError Unit × Session
  | 0, session => (.ok (), session)
  | fuel + 1, session =>
    match session.runOneStep with
    | (.error cause, session) => (.error (.step cause), session)
    | (.ok .halted, session) => (.ok (), session)
    | (.ok _, session) => takeSteps fuel session

/-- Takes steps to the end, or at most a number of them. -/
def runSession (session : Session) (limit : Option Nat) : Except SessionError Unit × Session :=
  match limit with
  | none =>
    match session.runFull with
    | (.error cause, session) => (.error cause, session)
    | (.ok _, session) => (.ok (), session)
  | some limit => takeSteps (min limit (session.trace.remaining + 1)) session

/-- Appends the log entries of the reports to the log file, if there is one. A log that cannot be
written is let be. -/
def Files.writeLog (files : Files m) (a : Arguments) (reports : List RunReport)
    (nanoseconds : Nat) : m Unit :=
  match a.logFile with
  | none => return ()
  | some path =>
    for report in reports do
      let _ ← files.append path (Utf8.encode (report.logEntry nanoseconds))

/-- Writes the snapshot file, if one is asked for. -/
def Files.saveSnapshot (files : Files m) (a : Arguments) (start : Start) (session : Session) :
    ExceptT GradeError m Unit :=
  match a.saveSnapshot with
  | none => return ()
  | some path => do
    let snapshot : Snapshot :=
      ⟨start.traceOffset + session.trace.offset, start.steps + session.stepCount, session.state⟩
    match ← files.write path (Utf8.encode (snapshot.encode ++ "\n")) with
    | .error cause => throw (.writeSnapshot path cause)
    | .ok () => return ()

def summary (session : Session) : String :=
  "energy: " ++ toString session.state.energy ++ "\nstatus: " ++ session.status.text ++ "\n"

/-- Grades a trace. The snapshot is written also when the trace fails. -/
def Files.grade (files : Files m) (a : Arguments) : ExceptT GradeError m String := do
  let start ← files.prepare a
  let begun ← files.clock
  let (outcome, session) := runSession start.session a.steps
  let ended ← files.clock
  files.writeLog a session.reports (ended - begun)
  files.saveSnapshot a start session
  match outcome with
  | .error cause => throw (.traceFailed cause)
  | .ok () => return summary session

def versionText : String := "nanobot-emulator 0.1.0\n"

def helpText : String :=
  "Usage: nanobot-emulator [OPTIONS] --trace <TRACE>\n\nOptions:\n" ++
    String.join (Setting.all.map fun setting => "      --" ++ setting.name ++ " <VALUE>\n") ++
    "  -h, --help\n  -V, --version\n"

/-- Does what the command line asks for; gives also the error of a run that has failed. -/
def perform (files : Files m) (request : Request) : m (Output × Option GradeError) := do
  match request with
  | .version => return (⟨0, versionText, ""⟩, none)
  | .help => return (⟨0, helpText, ""⟩, none)
  | .refused => return (⟨2, "", helpText⟩, none)
  | .grade a =>
    match ← (files.grade a).run with
    | .ok text => return (⟨0, text, ""⟩, none)
    | .error e => return (⟨1, "", e.report⟩, some e)

end

end VoxelSwarm.CommandLine
