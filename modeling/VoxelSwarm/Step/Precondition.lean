import VoxelSwarm.Step.Path
import VoxelSwarm.Step.Plan
import VoxelSwarm.Step.Rules

/-!
# Preconditions

What has to hold before a bot may carry out its command. `checkAlone` looks at the bot and the
state only; `checkTogether` looks for the fusion partner or the other members of the group, which
takes the whole plan. A step requires both (`checkPrecondition`), while a command that is offered
before the plan is complete is judged alone.
-/

namespace VoxelSwarm

/-- Why a command cannot be carried out. -/
inductive PreconditionError where
  | outOfBounds (position : Position)
  | blocked (position : Position)
  | noFusionPartner (position : Position)
  | insufficientSeeds (required available : Nat)
  | haltWithCompanions (active : Nat)
  | haltByWrongBot
  | haltAwayFromOrigin (position : Position)
  | haltInHighHarmonics
  | haltBeforeTarget
  | incompleteGroup (lo hi : Position) (members required : Nat)
  | sharedCorner (position : Position)
  | memberInsideGroup (id : BotId) (position : Position)
  deriving DecidableEq, Repr

def PreconditionError.message : PreconditionError → String
  | .outOfBounds position => position.text ++ " is out of bounds"
  | .blocked position => position.text ++ " is full"
  | .noFusionPartner position => "no fusion partner at " ++ position.text
  | .insufficientSeeds required available =>
    "fission needs " ++ toString required ++ " seeds, bot holds " ++ toString available
  | .haltWithCompanions active => "halt requires a single active bot, found " ++ toString active
  | .haltByWrongBot => "halt must be issued by bot " ++ BotId.first.text
  | .haltAwayFromOrigin position => "halt must be issued at the origin, not " ++ position.text
  | .haltInHighHarmonics => "halt requires low harmonics"
  | .haltBeforeTarget => "halt requires the matrix to match the target model"
  | .incompleteGroup lo hi members required =>
    "group over " ++ lo.text ++ ".." ++ hi.text ++ " has " ++ toString members ++
      " members, needs " ++ toString required
  | .sharedCorner position => "two group members share the corner " ++ position.text
  | .memberInsideGroup id position =>
    "group member " ++ id.text ++ " stands inside its box at " ++ position.text

namespace State

def checkInside (s : State) (p : Position) : Except PreconditionError Unit :=
  if s.matrix.Holds p then .ok () else .error (.outOfBounds p)

def checkVoid (s : State) (p : Position) : Except PreconditionError Unit :=
  if ¬s.matrix.Holds p then .error (.outOfBounds p)
  else if s.matrix.get p then .error (.blocked p)
  else .ok ()

/-- Every voxel of a path is inside the grid and void. -/
def checkPath (s : State) : List Position → Except PreconditionError Unit
  | [] => .ok ()
  | p :: rest => do
    s.checkVoid p
    checkPath s rest

/-- The bot may end the run. -/
def checkHalt (s : State) (rules : Rules) (id : BotId) : Except PreconditionError Unit :=
  if s.activeCount ≠ 1 then .error (.haltWithCompanions s.activeCount)
  else if id ≠ BotId.first then .error .haltByWrongBot
  else if s.positionOf id ≠ Position.origin then .error (.haltAwayFromOrigin (s.positionOf id))
  else if s.harmonics = .high then .error .haltInHighHarmonics
  else if rules.targetBeforeHalt && !s.targetReached then .error .haltBeforeTarget
  else .ok ()

/-- The bot can spawn a bot that takes `m` seeds with it. -/
def checkFission (s : State) (id : BotId) (target : Position) (m : Nat) :
    Except PreconditionError Unit := do
  s.checkVoid target
  let available := ((s.bot? id).map (·.seeds.length)).getD 0
  if available < m + 1 then .error (.insufficientSeeds (m + 1) available) else .ok ()

/-- Both corners of the box of a group command are inside the grid and the bot is not in the box. -/
def checkBox (s : State) (id : BotId) (nd fd : Displacement) : Except PreconditionError Unit := do
  let position := s.positionOf id
  s.checkInside (position + nd)
  s.checkInside (position + nd + fd)
  if (groupRegion position nd fd).Contains position then
    .error (.memberInsideGroup id position)
  else .ok ()

/-- What a command requires of the bot and the state. -/
def checkAlone (s : State) (rules : Rules) (id : BotId) (c : Command) :
    Except PreconditionError Unit :=
  let position := s.positionOf id
  match c with
  | .halt => s.checkHalt rules id
  | .wait | .flip => .ok ()
  | .smove lld => s.checkPath (straightPath position lld)
  | .lmove sld₁ sld₂ => do
    s.checkPath (straightPath position sld₁)
    s.checkPath (straightPath (position + sld₁) sld₂)
  | .fusionP nd | .fusionS nd | .fill nd | .void nd => s.checkInside (position + nd)
  | .fission nd m => s.checkFission id (position + nd) m.toNat
  | .gfill nd fd | .gvoid nd fd => s.checkBox id nd fd

/-- The bot at `position + nd` answers a fusion command with the opposite one. -/
def checkFusion (s : State) (plan : Plan) (position : Position) (nd : Displacement)
    (primary : Bool) : Except PreconditionError Unit :=
  match plan.fusionPartner? s position nd primary with
  | some _ => .ok ()
  | none => .error (.noFusionPartner (position + nd))

/-- The first entry of a sorted list that is repeated. -/
def firstRepeated : List Position → Option Position
  | p :: q :: rest => if p = q then some p else firstRepeated (q :: rest)
  | _ => none

/-- The bots that name a box are one for each of its corners. -/
def checkGroup (s : State) (plan : Plan) (kind : GroupKind) (g : Region) :
    Except PreconditionError Unit :=
  let members := plan.groupMembers s kind g
  if members.length ≠ g.corners.length then
    .error (.incompleteGroup g.lo g.hi members.length g.corners.length)
  else
    let corners := (members.map (·.2)).mergeSort fun p q => decide (¬q < p)
    match firstRepeated corners with
    | some p => .error (.sharedCorner p)
    | none => .ok ()

/-- What a command requires of the other bots' commands. -/
def checkTogether (s : State) (plan : Plan) (id : BotId) (c : Command) :
    Except PreconditionError Unit :=
  let position := s.positionOf id
  match c with
  | .fusionP nd => s.checkFusion plan position nd false
  | .fusionS nd => s.checkFusion plan position nd true
  | .gfill nd fd => s.checkGroup plan .fill (groupRegion position nd fd)
  | .gvoid nd fd => s.checkGroup plan .void (groupRegion position nd fd)
  | _ => .ok ()

/-- What a command requires of the bot, the state and the other bots' commands. -/
def checkPrecondition (s : State) (rules : Rules) (plan : Plan) (id : BotId) (c : Command) :
    Except PreconditionError Unit := do
  s.checkAlone rules id c
  s.checkTogether plan id c

end State

end VoxelSwarm
