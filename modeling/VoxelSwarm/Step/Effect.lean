import VoxelSwarm.Step.Plan

/-!
# Effects

What carrying out a command does to the state, and what it costs. Nothing is checked here: a
command whose preconditions do not hold has some effect too. Two things cannot be done, writing a
voxel outside the grid and splitting off seeds that the bot does not hold; `mishap?` tells whether a
command comes to one of them.
-/

namespace VoxelSwarm

namespace Energy

/-- What each active bot costs in each step. -/
def perBot : Int := 20

/-- What a spawned bot costs; a fused one gives it back. -/
def spawn : Int := 24

/-- What writing a voxel costs: filling a void one, filling a full one, voiding a full one and
voiding a void one. -/
def write (value full : Bool) : Int :=
  match value, full with
  | true, false => 12
  | true, true => 6
  | false, true => -12
  | false, false => 3

def straight (d : Displacement) : Int := 2 * (d.mlen : Int)

def bent (d e : Displacement) : Int := 2 * ((d.mlen : Int) + 2 + e.mlen)

/-- What the field and the active bots cost in each step. -/
def passive (s : State) (active : Nat) : Int :=
  active * perBot + (Matrix.volume s.resolution : Nat) * s.harmonics.costPerVoxel

end Energy

/-- What cannot be done. -/
inductive Mishap where
  | strayVoxel (stray : StrayVoxel)
  /-- A bot holds fewer seeds than are split off. -/
  | seedShortage (required available : Nat)
  deriving DecidableEq, Repr

def Mishap.message : Mishap → String
  | .strayVoxel stray => stray.message
  | .seedShortage required available =>
    "range end index " ++ toString required ++ " out of range for slice of length " ++
      toString available

/-- What a command writes into the matrix: the value, and the voxels in order. -/
structure Edit where
  value : Bool
  voxels : List Position

namespace State

/-- Fills or voids one voxel and charges for it; says also whether the matrix has changed, now or
before. -/
def writeVoxel (value : Bool) : State × Bool → Position → State × Bool
  | (s, earlier), p =>
    let full := s.matrix.get p
    let charged := s.charge (Energy.write value full)
    if full = value then (charged, earlier)
    else ({ charged with matrix := charged.matrix.set p value }, true)

/-- What a command writes. Of a group only the leader writes, the whole box. -/
def edit? (s : State) (plan : Plan) (id : BotId) (c : Command) : Option Edit :=
  let position := s.positionOf id
  let box (kind : GroupKind) (value : Bool) (nd fd : Displacement) : Option Edit :=
    let g := groupRegion position nd fd
    if plan.groupLeader? s kind g = some id then some ⟨value, g.voxels⟩ else none
  match c with
  | .fill nd => some ⟨true, [position + nd]⟩
  | .void nd => some ⟨false, [position + nd]⟩
  | .gfill nd fd => box .fill true nd fd
  | .gvoid nd fd => box .void false nd fd
  | _ => none

/-- The first voxel outside the grid that a command would write. -/
def strayVoxel? (s : State) (plan : Plan) (id : BotId) (c : Command) : Option StrayVoxel := do
  let edit ← s.edit? plan id c
  let p ← edit.voxels.find? fun p => ¬s.matrix.Holds p
  return ⟨p, s.resolution⟩

/-- The seeds that a command would split off, if its bot holds fewer. -/
def seedShortage? (s : State) (id : BotId) : Command → Option Mishap
  | .fission _ m => do
    let b ← s.bot? id
    if b.seeds.length ≤ m.toNat then some (.seedShortage (m.toNat + 1) b.seeds.length) else none
  | _ => none

/-- What goes wrong when a command is carried out. -/
def mishap? (s : State) (plan : Plan) (id : BotId) (c : Command) : Option Mishap :=
  (s.strayVoxel? plan id c).map .strayVoxel <|> s.seedShortage? id c

/-- Writes the voxels of an edit up to the first one outside the grid. -/
def applyEdit (s : State) (edit : Edit) : State × Bool :=
  (edit.voxels.takeWhile fun p => s.matrix.Holds p).foldl (writeVoxel edit.value) (s, false)

def moveBot (s : State) (id : BotId) (destination : Position) : State :=
  s.updateBot id fun b => { b with position := destination }

/-- Takes a bot out of the swarm and ends the run. -/
def halt (s : State) (id : BotId) : State :=
  { s.updateBot id Bot.retire with halted := true }

/-- One bot absorbs another. -/
def fuse (s : State) (primary secondary : BotId) : State :=
  match s.bot? secondary with
  | none => s
  | some absorbed =>
    ((s.updateBot secondary Bot.retire).updateBot primary fun b =>
      b.absorb secondary absorbed.seeds).charge (-Energy.spawn)

/-- A bot spawns another at `target`, which takes `m` seeds with it, if it holds enough. -/
def spawn (s : State) (id : BotId) (target : Position) (m : Nat) : State :=
  match (s.bot? id).bind fun b => b.handOver m with
  | none => s
  | some (child, seeds, parent) =>
    (((s.updateBot id fun _ => parent).install (Bot.activeAt child target seeds)).charge
      Energy.spawn)

/-- Carries out the command of a bot; says also whether the matrix has changed. -/
def execute (s : State) (plan : Plan) (id : BotId) (c : Command) : State × Bool :=
  let position := s.positionOf id
  match c with
  | .halt => (s.halt id, false)
  | .wait | .fusionS _ => (s, false)
  | .flip => ({ s with harmonics := s.harmonics.flipped }, false)
  | .smove lld => ((s.moveBot id (position + lld)).charge (Energy.straight lld), false)
  | .lmove sld₁ sld₂ =>
    ((s.moveBot id (position + sld₁ + sld₂)).charge (Energy.bent sld₁ sld₂), false)
  | .fusionP nd =>
    match plan.fusionPartner? s position nd false with
    | none => (s, false)
    | some secondary => (s.fuse id secondary, false)
  | .fission nd m => (s.spawn id (position + nd) m.toNat, false)
  | .fill _ | .void _ | .gfill _ _ | .gvoid _ _ =>
    match s.edit? plan id c with
    | none => (s, false)
    | some edit => s.applyEdit edit

end State

end VoxelSwarm
