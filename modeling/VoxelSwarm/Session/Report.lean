import VoxelSwarm.Step.Error

/-!
# Run reports

What is told about a run when it halts or fails, and the entry of a log file that says so.
-/

namespace VoxelSwarm

/-- How a run is driven. -/
inductive RunMode where
  /-- In one call, to its end. -/
  | auto
  /-- Step by step. -/
  | interactive
  deriving DecidableEq, Repr

def RunMode.text : RunMode → String
  | .auto => "auto"
  | .interactive => "interactive"

/-- The names of what is built and of the trace that builds it. -/
structure RunLabels where
  problem : String := ""
  solution : String := ""
  deriving DecidableEq, Repr, Inhabited

/-- How a run has ended. -/
inductive Outcome where
  | success (energy : Int)
  | failure (kind : ErrorKind) (message : String)
  deriving DecidableEq, Repr

/-- What is told about a run at its end. -/
structure RunReport where
  labels : RunLabels
  mode : RunMode
  steps : Nat
  outcome : Outcome
  deriving DecidableEq, Repr

/-- The last line of a log entry. -/
def Outcome.text : Outcome → String
  | .success energy => "SUCCESS : " ++ toString energy
  | .failure kind message => "ERROR : " ++ kind.text ++ ": " ++ message

/-- The log entry of a run that took the given number of nanoseconds; a blank line ends it. -/
def RunReport.logEntry (r : RunReport) (nanoseconds : Nat) : String :=
  "Problem:  " ++ r.labels.problem ++ "\n" ++
  "Solution: " ++ r.labels.solution ++ "\n" ++
  "Mode:     " ++ r.mode.text ++ "\n" ++
  "time elapsed: " ++ toString (nanoseconds / 1000) ++ " microseconds\n" ++
  r.outcome.text ++ "\n\n"

end VoxelSwarm
