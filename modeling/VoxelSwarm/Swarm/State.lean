import VoxelSwarm.Matrix.Grounding
import VoxelSwarm.Swarm.Bot
import VoxelSwarm.Swarm.Harmonics

/-!
# States

A `State` is everything that a step reads or changes: the matrix, the model it is meant to become,
the table of bots with one slot for each identifier, the energy spent, the harmonics and whether
the run has halted. Here are its queries and its elementary changes; which states make sense is
said in `VoxelSwarm.Swarm.WellFormed`.
-/

namespace VoxelSwarm

/-- Everything that a step reads or changes. -/
structure State where
  matrix : Matrix
  target : Matrix
  bots : Array Bot
  energy : Int
  harmonics : Harmonics
  halted : Bool
  deriving DecidableEq

namespace State

/-! ## Queries -/

def resolution (s : State) : Nat := s.matrix.resolution

/-- The matrix is the model it is meant to become. -/
def targetReached (s : State) : Bool := decide (s.matrix = s.target)

/-- The slot of a bot, active or not. -/
def bot? (s : State) (id : BotId) : Option Bot := s.bots[id.index]?

/-- The active bots, in the order of their slots. -/
def activeBots (s : State) : List Bot := s.bots.toList.filter (·.active)

/-- The identifiers of the active bots, in the order of their slots. -/
def activeIds (s : State) : List BotId := s.activeBots.map (·.id)

def activeCount (s : State) : Nat := s.activeBots.length

def botAt? (s : State) (p : Position) : Option BotId :=
  (s.activeBots.find? (·.position = p)).map (·.id)

/-- Where a bot is; one without a slot counts as being at the origin. -/
def positionOf (s : State) (id : BotId) : Position :=
  ((s.bot? id).map (·.position)).getD Position.origin

/-! ## Changes -/

/-- Changes the slot of a bot, if there is one. -/
def updateBot (s : State) (id : BotId) (change : Bot → Bot) : State :=
  { s with bots := s.bots.modify id.index change }

theorem bot?_updateBot (s : State) (id : BotId) (change : Bot → Bot) (other : BotId) :
    (s.updateBot id change).bot? other =
      if id = other then (s.bot? other).map change else s.bot? other := by
  simp only [bot?, updateBot, Array.getElem?_modify, BotId.index_inj]

/-- Puts a bot into its slot, if there is one. -/
def install (s : State) (b : Bot) : State := s.updateBot b.id fun _ => b

/-- Charges energy, or gives it back when negative. -/
def charge (s : State) (amount : Int) : State := { s with energy := s.energy + amount }

end State

end VoxelSwarm
