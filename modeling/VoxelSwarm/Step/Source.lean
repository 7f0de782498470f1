import VoxelSwarm.Command.Trace

/-!
# Command sources

Where a step takes its commands from, one for each active bot: a trace that is decoded as it is
read, or a list of commands that are already there. `remaining` bounds the number of commands that
a source can still give.
-/

namespace VoxelSwarm

/-- What commands can be taken from. -/
class CommandSource (σ : Type) where
  /-- Takes the next command. -/
  next : σ → Except TraceError Command × σ
  /-- The number of commands that can still be taken, or more. -/
  remaining : σ → Nat

instance : CommandSource TraceReader where
  next := TraceReader.next
  remaining := TraceReader.remaining

/-- A cursor in a list of commands. -/
structure CommandList where
  rest : List Command
  offset : Nat
  deriving DecidableEq, Inhabited

namespace CommandList

def ofList (cs : List Command) : CommandList := ⟨cs, 0⟩

def exhausted (src : CommandList) : Bool := src.rest.isEmpty

/-- Takes the next command. -/
def next (src : CommandList) : Except TraceError Command × CommandList :=
  match src.rest with
  | [] => (.error (.endOfTrace src.offset), src)
  | c :: rest => (.ok c, ⟨rest, src.offset + 1⟩)

instance : CommandSource CommandList where
  next := next
  remaining src := src.rest.length

end CommandList

end VoxelSwarm
