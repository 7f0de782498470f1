import VoxelSwarm.Step.Effect
import VoxelSwarm.Step.Error
import VoxelSwarm.Step.Source

/-!
# Running a step

A step takes one command for each active bot (`readPlan`), checks all of them and their footprints
(`checkPlan`), carries them out in the order of the bots' identifiers and charges for the step
(`executeAll`), and last looks for floating matter if the rules ask for it. `resolveStep` is what
follows the reading, and `runStep` is the whole.

A step that fails before the commands are carried out leaves the state as it was. One that fails
because matter floats leaves the state in which it does.
-/

namespace VoxelSwarm

/-- What a completed step did. -/
structure StepReport where
  active : Nat
  energy : Int
  halted : Bool
  deriving DecidableEq, Repr

/-- Takes one command for each bot. -/
def readPlan {σ : Type} [CommandSource σ] :
    List BotId → Plan → σ → Except TraceError Plan × σ
  | [], plan, src => (.ok plan, src)
  | id :: rest, plan, src =>
    match CommandSource.next src with
    | (.error e, src) => (.error e, src)
    | (.ok c, src) => readPlan rest (plan.assign id c) src

namespace State

/-- The bot has a command that is fit to be carried out. -/
def checkBot (s : State) (rules : Rules) (plan : Plan) (id : BotId) : Except StepError Unit :=
  match plan.command? id with
  | none => .error (.missingCommand id)
  | some c => do
    c.check.mapError (.invalidCommand id)
    (s.checkPrecondition rules plan id c).mapError (.precondition id c)

def checkBots (s : State) (rules : Rules) (plan : Plan) : List BotId → Except StepError Unit
  | [] => .ok ()
  | id :: rest => do
    s.checkBot rules plan id
    checkBots s rules plan rest

/-- No two bots claim the same voxel. -/
def checkFootprints (s : State) (plan : Plan) (ids : List BotId) : Except StepError Unit :=
  match s.findInterference? plan ids with
  | some clash => .error (.interference clash)
  | none => .ok ()

/-- The plan can be carried out by the given bots. -/
def checkPlan (s : State) (rules : Rules) (plan : Plan) (ids : List BotId) :
    Except StepError Unit := do
  s.checkBots rules plan ids
  s.checkFootprints plan ids

/-- Carries out the command of one bot; says also whether the matrix has changed, now or before. -/
def executeBot (plan : Plan) : State × Bool → BotId → State × Bool
  | (s, earlier), id =>
    match plan.command? id with
    | none => (s, earlier)
    | some c =>
      let (after, changed) := s.execute plan id c
      (after, earlier || changed)

/-- Charges for the step and carries out the commands of the bots in turn. -/
def executeAll (s : State) (plan : Plan) (ids : List BotId) : State × Bool :=
  ids.foldl (executeBot plan) (s.charge (Energy.passive s ids.length), false)

/-- Whether floating matter is looked for after a step that started under the harmonics `before`. -/
def groundingDue (s : State) (rules : Rules) (before : Harmonics) (changed : Bool) : Bool :=
  match rules.grounding with
  | .everyStep => decide (s.harmonics = .low) && (changed || decide (s.harmonics ≠ before))
  | .atHalt => s.halted
  | .never => false

/-- Checks a plan and carries it out. -/
def resolveStep (s : State) (rules : Rules) (plan : Plan) (ids : List BotId) :
    Except StepError StepReport × State :=
  match s.checkPlan rules plan ids with
  | .error e => (.error e, s)
  | .ok () =>
    let (after, changed) := s.executeAll plan ids
    if after.groundingDue rules s.harmonics changed ∧ 0 < after.matrix.floatingCount then
      (.error (.ungrounded after.matrix.floatingCount), after)
    else (.ok ⟨ids.length, after.energy - s.energy, after.halted⟩, after)

/-- Takes one command for each active bot and carries them out. -/
def runStep {σ : Type} [CommandSource σ] (s : State) (rules : Rules) (src : σ) :
    Except StepError StepReport × State × σ :=
  match readPlan s.activeIds Plan.empty src with
  | (.error e, src) => (.error (.parse e), s, src)
  | (.ok plan, src) =>
    let (result, after) := s.resolveStep rules plan s.activeIds
    (result, after, src)

end State

end VoxelSwarm
