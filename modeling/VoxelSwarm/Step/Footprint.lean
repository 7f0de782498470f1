import Std.Data.HashMap
import VoxelSwarm.Step.Path
import VoxelSwarm.Step.Plan

/-!
# Footprints

The voxels that a bot claims while it carries out its command. A group's box is claimed by the
member with the lowest identifier; the others claim only the voxel they stand at. Two bots
interfere when they claim the same voxel; `findInterference?` reports the first such voxel, taking
the bots in order and each bot's voxels in the order of its footprint.
-/

namespace VoxelSwarm

/-- The voxels that a bot claims while it carries out a command. -/
def State.footprint (s : State) (plan : Plan) (id : BotId) (c : Command) : List Position :=
  let position := s.positionOf id
  let box (kind : GroupKind) (nd fd : Displacement) : List Position :=
    let g := groupRegion position nd fd
    if plan.groupLeader? s kind g = some id then position :: g.voxels else [position]
  match c with
  | .halt | .wait | .flip | .fusionP _ | .fusionS _ => [position]
  | .smove lld => straightPath position lld
  | .lmove sld₁ sld₂ => bentPath position sld₁ sld₂
  | .fission nd _ | .fill nd | .void nd => [position, position + nd]
  | .gfill nd fd => box .fill nd fd
  | .gvoid nd fd => box .void nd fd

/-- Two bots that claim one voxel. -/
structure Interference where
  position : Position
  first : BotId
  second : BotId
  deriving DecidableEq, Repr

instance : Hashable Position where
  hash p := mixHash (hash p.x) (mixHash (hash p.y) (hash p.z))

/-- Who has claimed which voxel so far. -/
abbrev Claims := Std.HashMap Position BotId

namespace Claims

/-- Claims voxels for a bot, up to the first one that another bot has claimed. -/
def claim (id : BotId) : List Position → Claims → Except Interference Claims
  | [], claims => .ok claims
  | p :: rest, claims =>
    match claims[p]? with
    | none => claim id rest (claims.insert p id)
    | some other => if other = id then claim id rest claims else .error ⟨p, other, id⟩

end Claims

/-- Claims the footprints of several bots in turn. -/
def State.claimAll (s : State) (plan : Plan) : List BotId → Claims → Except Interference Claims
  | [], claims => .ok claims
  | id :: rest, claims =>
    match plan.command? id with
    | none => claimAll s plan rest claims
    | some c =>
      match Claims.claim id (s.footprint plan id c) claims with
      | .ok claims => claimAll s plan rest claims
      | .error e => .error e

/-- The first voxel that two of the bots claim. -/
def State.findInterference? (s : State) (plan : Plan) (ids : List BotId) : Option Interference :=
  match s.claimAll plan ids ∅ with
  | .ok _ => none
  | .error e => some e

end VoxelSwarm
