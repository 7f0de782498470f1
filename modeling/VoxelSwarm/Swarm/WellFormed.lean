import VoxelSwarm.Swarm.State

/-!
# Well-formed states

A state makes sense when its table has one slot for each identifier, its active bots stand at
different void voxels of the grid, no identifier is claimed twice among the active bots and their
seeds, it has active bots exactly while it has not halted, and low harmonics find nothing floating.
`checkWellFormed` reports the first of these that fails. `initial` is the state that every run
starts from, and `ofBots` puts a state together from a list of bots.
-/

namespace VoxelSwarm

/-- Why a state cannot be run. -/
inductive SetupError where
  | missingModels
  | resolutionMismatch (source target : Nat)
  | slotCount (expected actual : Nat)
  | slotMismatch (slot : Nat) (id : BotId)
  | invalidIdentifier (id : BotId)
  | reservedSlotActive
  | botOutOfBounds (id : BotId) (position : Position)
  | botInsideMatter (id : BotId) (position : Position)
  | sharedPosition (first second : BotId) (position : Position)
  | invalidSeed (id seed : BotId)
  | duplicateIdentifier (id : BotId)
  | noActiveBots
  | activeAfterHalt (active : Nat)
  | ungrounded (floating : Nat)
  deriving DecidableEq, Repr

def SetupError.message : SetupError → String
  | .missingModels => "at least one of the source and target models is required"
  | .resolutionMismatch source target =>
    "source resolution " ++ toString source ++ " differs from target resolution " ++ toString target
  | .slotCount expected actual =>
    "expected " ++ toString expected ++ " bot slots, found " ++ toString actual
  | .slotMismatch slot id => "slot " ++ toString slot ++ " holds bot " ++ id.text
  | .invalidIdentifier id => "bot identifier " ++ id.text ++ " is outside the valid range"
  | .reservedSlotActive => "bot identifier 0 is reserved"
  | .botOutOfBounds id position =>
    "bot " ++ id.text ++ " at " ++ position.text ++ " is out of bounds"
  | .botInsideMatter id position =>
    "bot " ++ id.text ++ " at " ++ position.text ++ " is inside a full voxel"
  | .sharedPosition first second position =>
    "bots " ++ first.text ++ " and " ++ second.text ++ " share " ++ position.text
  | .invalidSeed id seed => "bot " ++ id.text ++ " holds invalid seed " ++ seed.text
  | .duplicateIdentifier id => "bot identifier " ++ id.text ++ " is claimed more than once"
  | .noActiveBots => "running state has no active bots"
  | .activeAfterHalt active => "halted state still has " ++ toString active ++ " active bots"
  | .ungrounded floating =>
    toString floating ++ " full voxels are not grounded under low harmonics"

def Matrix.checkSameResolution (source target : Matrix) : Except SetupError Unit :=
  if source.resolution = target.resolution then .ok ()
  else .error (.resolutionMismatch source.resolution target.resolution)

namespace State

/-- The slots of a swarm without an active bot. -/
def idleSlots : Array Bot := (Array.range botSlots).map fun i => Bot.idle (BotId.ofIndex i)

/-! ## The checks -/

/-- The table has one slot for each identifier. -/
def checkSlotCount (s : State) : Except SetupError Unit :=
  if s.bots.size = botSlots then .ok () else .error (.slotCount botSlots s.bots.size)

/-- Slot `i` holds bot `i`, counting from `slot`. -/
def checkSlots (slot : Nat) : List Bot → Except SetupError Unit
  | [] => .ok ()
  | b :: rest =>
    if b.id.index = slot then checkSlots (slot + 1) rest else .error (.slotMismatch slot b.id)

def checkReservedSlot (s : State) : Except SetupError Unit :=
  if (s.bots[0]?.map (·.active)).getD false then .error .reservedSlotActive else .ok ()

/-- A bot stands at a void voxel of the grid where none of the earlier bots stands. -/
def checkPlace (m : Matrix) (earlier : List Bot) (b : Bot) : Except SetupError Unit :=
  if ¬m.Holds b.position then .error (.botOutOfBounds b.id b.position)
  else if m.get b.position then .error (.botInsideMatter b.id b.position)
  else match earlier.find? (·.position = b.position) with
    | some other => .error (.sharedPosition other.id b.id b.position)
    | none => .ok ()

/-- Each bot stands at a void voxel of the grid of its own. -/
def checkPlaces (m : Matrix) (earlier : List Bot) : List Bot → Except SetupError Unit
  | [] => .ok ()
  | b :: rest => do
    checkPlace m earlier b
    checkPlaces m (earlier ++ [b]) rest

/-- Each seed is a valid identifier that nobody else has claimed. Seeds come with their holders. -/
def checkSeeds (claimed : List BotId) : List (BotId × BotId) → Except SetupError Unit
  | [] => .ok ()
  | (holder, seed) :: rest =>
    if ¬seed.Valid then .error (.invalidSeed holder seed)
    else if seed ∈ claimed then .error (.duplicateIdentifier seed)
    else checkSeeds (seed :: claimed) rest

/-- The seeds of the active bots, each with its holder. -/
def heldSeeds (s : State) : List (BotId × BotId) :=
  s.activeBots.flatMap fun b => b.seeds.map fun seed => (b.id, seed)

/-- There are active bots exactly while the run has not halted. -/
def checkActivity (s : State) : Except SetupError Unit :=
  if s.halted ∧ 0 < s.activeCount then .error (.activeAfterHalt s.activeCount)
  else if ¬s.halted ∧ s.activeCount = 0 then .error .noActiveBots
  else .ok ()

def checkGrounded (s : State) : Except SetupError Unit :=
  if s.harmonics = .low ∧ 0 < s.matrix.floatingCount then
    .error (.ungrounded s.matrix.floatingCount)
  else .ok ()

/-- Reports the first reason for which a state does not make sense. -/
def checkWellFormed (s : State) : Except SetupError Unit := do
  s.checkSlotCount
  checkSlots 0 s.bots.toList
  s.checkReservedSlot
  s.matrix.checkSameResolution s.target
  checkPlaces s.matrix [] s.activeBots
  checkSeeds s.activeIds s.heldSeeds
  s.checkActivity
  s.checkGrounded

/-! ## Putting states together -/

/-- The state in which bot 1 stands at the origin of `source` and holds every other identifier. -/
def start (source target : Matrix) : State where
  matrix := source
  target := target
  bots := idleSlots.modify BotId.first.index fun _ =>
    Bot.activeAt BotId.first Position.origin
      ((List.range' 2 (BotId.greatest - 1)).map BotId.ofIndex)
  energy := 0
  harmonics := .low
  halted := false

/-- The state that a run starts from. A missing model is an empty grid of the size of the other. -/
def initial : Option Matrix → Option Matrix → Except SetupError State
  | none, none => .error .missingModels
  | some source, none => .ok (start source (Matrix.empty source.resolution))
  | none, some target => .ok (start (Matrix.empty target.resolution) target)
  | some source, some target => do
    source.checkSameResolution target
    return start source target

/-- Puts each bot into its slot; every identifier is valid and comes once. -/
def fillSlots (claimed : List BotId) (slots : Array Bot) : List Bot → Except SetupError (Array Bot)
  | [] => .ok slots
  | b :: rest =>
    if ¬b.id.Valid then .error (.invalidIdentifier b.id)
    else if b.id ∈ claimed then .error (.duplicateIdentifier b.id)
    else fillSlots (b.id :: claimed) (slots.modify b.id.index fun _ => b) rest

/-- A state put together from its parts, if it makes sense. -/
def ofBots (matrix target : Matrix) (bots : List Bot) (energy : Int) (harmonics : Harmonics)
    (halted : Bool) : Except SetupError State := do
  let slots ← fillSlots [] idleSlots bots
  let s : State := ⟨matrix, target, slots, energy, harmonics, halted⟩
  s.checkWellFormed
  return s

end State

end VoxelSwarm
