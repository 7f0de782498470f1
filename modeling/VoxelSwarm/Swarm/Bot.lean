import VoxelSwarm.Geometry.Position

/-!
# Bots

A `Bot` is one slot of the swarm: an identifier from 1 to 40, a position, the identifiers it may
still hand out (its seeds, ascending) and whether it takes part. Spawning splits seeds off
(`handOver`), fusing takes them back (`absorb`).
-/

namespace VoxelSwarm

/-- The identifier of a bot: one byte, of which only 1 to 40 are ever active. -/
structure BotId where
  value : UInt8
  deriving DecidableEq, Repr, Inhabited

namespace BotId

def greatest : Nat := 40

/-- The bot that is active when a run starts, and that ends it. -/
def first : BotId := ⟨1⟩

/-- The slot of the bot in the table of bots. -/
def index (b : BotId) : Nat := b.value.toNat

theorem index_inj {a b : BotId} : a.index = b.index ↔ a = b := by
  cases a
  cases b
  simp only [index, UInt8.toNat_inj, mk.injEq]

/-- The identifier of a slot. -/
def ofIndex (i : Nat) : BotId := ⟨i.toUInt8⟩

/-- Identifiers an active bot can have. -/
def Valid (b : BotId) : Prop := 1 ≤ b.index ∧ b.index ≤ greatest

instance (b : BotId) : Decidable b.Valid := inferInstanceAs (Decidable (_ ∧ _))

instance : Ord BotId where
  compare a b := compare a.index b.index

/-- The order in which seeds are kept. -/
def le (a b : BotId) : Bool := decide (a.index ≤ b.index)

/-- An identifier is written with a number sign. -/
def text (b : BotId) : String := "#" ++ toString b.index

end BotId

/-- The number of slots: one for each identifier, and slot 0, which is never active. -/
def botSlots : Nat := BotId.greatest + 1

/-- One slot of the swarm. -/
structure Bot where
  id : BotId
  position : Position
  seeds : List BotId
  active : Bool
  deriving DecidableEq, Repr, Inhabited

namespace Bot

/-- Seeds in ascending order. -/
def sortSeeds (seeds : List BotId) : List BotId := seeds.mergeSort BotId.le

def activeAt (id : BotId) (position : Position) (seeds : List BotId) : Bot :=
  ⟨id, position, sortSeeds seeds, true⟩

/-- A slot that no bot has taken yet. -/
def idle (id : BotId) : Bot := ⟨id, Position.origin, [], false⟩

/-- The slot after its bot has left: the position stays, the seeds are gone. -/
def retire (b : Bot) : Bot := { b with seeds := [], active := false }

/-- Splits off the seeds of a new bot: the first becomes its identifier and the next `m` its own
seeds. With fewer seeds nothing is split off. -/
def handOver (b : Bot) (m : Nat) : Option (BotId × List BotId × Bot) :=
  match b.seeds with
  | [] => none
  | child :: rest =>
    if rest.length < m then none
    else some (child, rest.take m, { b with seeds := rest.drop m })

/-- Takes in another bot's identifier and seeds. -/
def absorb (b : Bot) (other : BotId) (seeds : List BotId) : Bot :=
  { b with seeds := sortSeeds (b.seeds ++ other :: seeds) }

end Bot

end VoxelSwarm
