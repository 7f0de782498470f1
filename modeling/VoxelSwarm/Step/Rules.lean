/-!
# Rules

The two choices under which steps are judged: when floating matter is looked for, and whether the
target has to be reached before the run may halt.
-/

namespace VoxelSwarm

/-- When every full voxel has to be grounded. -/
inductive GroundingPolicy where
  /-- After every step that changed the matrix or the harmonics, while harmonics are low. -/
  | everyStep
  /-- After the step that halts. -/
  | atHalt
  | never
  deriving DecidableEq, Repr, Inhabited

namespace GroundingPolicy

/-- All policies, the strictest first. -/
def all : List GroundingPolicy := [.everyStep, .atHalt, .never]

def keyword : GroundingPolicy → String
  | .everyStep => "every_step"
  | .atHalt => "at_halt"
  | .never => "never"

def ofKeyword? (word : String) : Option GroundingPolicy := all.find? (·.keyword == word)

def name : GroundingPolicy → String
  | .everyStep => "EveryStep"
  | .atHalt => "AtHalt"
  | .never => "Never"

end GroundingPolicy

/-- The rules of a run. -/
structure Rules where
  grounding : GroundingPolicy := .everyStep
  targetBeforeHalt : Bool := false
  deriving DecidableEq, Repr, Inhabited

end VoxelSwarm
