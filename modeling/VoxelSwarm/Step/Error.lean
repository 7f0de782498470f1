import VoxelSwarm.Command.Trace
import VoxelSwarm.Step.Footprint
import VoxelSwarm.Step.Precondition

/-!
# Step errors

Why a step fails, in the order in which a step looks for the causes: the commands cannot be read, a
command is not fit to be carried out, two bots interfere, or matter is left floating.
-/

namespace VoxelSwarm

/-- The broad classes of failures. -/
inductive ErrorKind where
  | parse
  | emulation
  | interference
  | malfunction
  deriving DecidableEq, Repr

def ErrorKind.text : ErrorKind → String
  | .parse => "Parser error"
  | .emulation => "Emulation error"
  | .interference => "Interference error"
  | .malfunction => "Emulator malfunction"

/-- Why a step fails. -/
inductive StepError where
  | parse (cause : TraceError)
  | missingCommand (id : BotId)
  | invalidCommand (id : BotId) (cause : CommandError)
  | precondition (id : BotId) (command : Command) (cause : PreconditionError)
  | interference (clash : Interference)
  | ungrounded (floating : Nat)
  deriving DecidableEq, Repr

namespace StepError

/-- The class of a failure. A command that was read with an argument outside its class counts as
one that cannot be carried out. -/
def kind : StepError → ErrorKind
  | .parse (.illFormed _ _) => .emulation
  | .parse _ => .parse
  | .invalidCommand _ _ | .precondition _ _ _ | .ungrounded _ => .emulation
  | .interference _ => .interference
  | .missingCommand _ => .malfunction

def message : StepError → String
  | .parse cause => cause.message
  | .missingCommand id => "bot " ++ id.text ++ " is active but has no command"
  | .invalidCommand id cause => "bot " ++ id.text ++ ": " ++ cause.message
  | .precondition id command cause =>
    "bot " ++ id.text ++ " cannot execute " ++ command.text ++ ": " ++ cause.message
  | .interference clash =>
    "bots " ++ clash.first.text ++ " and " ++ clash.second.text ++ " both touch " ++
      clash.position.text
  | .ungrounded floating => toString floating ++ " full voxels are not grounded"

end StepError

end VoxelSwarm
