import VoxelSwarm.Command.Basic
import VoxelSwarm.Swarm.State

/-!
# Plans

A `Plan` holds the commands of one step, at most one for each bot. Bots look each other up in it:
a fusion needs its counterpart (`fusionPartner?`) and a group command the other bots that name the
same box (`groupMembers`).
-/

namespace VoxelSwarm

/-- The commands of one step, by bot. -/
structure Plan where
  commands : Vector (Option Command) botSlots
  deriving DecidableEq

namespace Plan

def empty : Plan := ⟨Vector.replicate botSlots none⟩

/-- Gives a bot its command. A bot without a slot gets none. -/
def assign (plan : Plan) (id : BotId) (c : Command) : Plan :=
  ⟨plan.commands.setIfInBounds id.index (some c)⟩

def command? (plan : Plan) (id : BotId) : Option Command := (plan.commands[id.index]?).join

theorem command?_empty (id : BotId) : empty.command? id = none := by
  simp only [command?, empty, Vector.getElem?_replicate]
  split <;> rfl

theorem command?_assign (plan : Plan) {id : BotId} (h : id.index < botSlots) (c : Command)
    (other : BotId) :
    (plan.assign id c).command? other = if id = other then some c else plan.command? other := by
  simp only [command?, assign, Vector.getElem?_setIfInBounds, BotId.index_inj]
  split <;> rfl

def size (plan : Plan) : Nat := plan.commands.toList.countP (·.isSome)

def isEmpty (plan : Plan) : Bool := plan.commands.toList.all (·.isNone)

/-- The bot at `position + nd` whose own fusion command points back at `position`: a primary one
when `primary` is wanted, else a secondary one. -/
def fusionPartner? (plan : Plan) (s : State) (position : Position) (nd : Displacement)
    (primary : Bool) : Option BotId :=
  (s.activeBots.find? fun other =>
    other.position = position + nd &&
      match plan.command? other.id with
      | some (.fusionP back) => primary && decide (position + nd + back = position)
      | some (.fusionS back) => !primary && decide (position + nd + back = position)
      | _ => false).map (·.id)

end Plan

/-- The two group commands. -/
inductive GroupKind where
  | fill
  | void
  deriving DecidableEq, Repr

/-- The group command that a command is, with its displacements. -/
def Command.group? : Command → Option (GroupKind × Displacement × Displacement)
  | .gfill nd fd => some (.fill, nd, fd)
  | .gvoid nd fd => some (.void, nd, fd)
  | _ => none

/-- The box of a group command given by a bot at `position`. -/
def groupRegion (position : Position) (nd fd : Displacement) : Region :=
  Region.spanning (position + nd) (position + nd + fd)

namespace Plan

/-- The active bots with a group command of one kind over one box, each with the corner it names. -/
def groupMembers (plan : Plan) (s : State) (kind : GroupKind) (g : Region) :
    List (BotId × Position) :=
  s.activeBots.filterMap fun b => do
    let (kind', nd, fd) ← (plan.command? b.id).bind Command.group?
    if kind' = kind ∧ groupRegion b.position nd fd = g then some (b.id, b.position + nd) else none

/-- The member of a group that acts for all of them. -/
def groupLeader? (plan : Plan) (s : State) (kind : GroupKind) (g : Region) : Option BotId :=
  (plan.groupMembers s kind g).head?.map (·.1)

end Plan

end VoxelSwarm
