import VoxelSwarm.CommandLine.Grade

/-!
# The program

Runs the command line on the files of the system.
-/

namespace VoxelSwarm.Program

def errorText : IO.Error → String
  | .noFileOrDirectory _ code _ => "No such file or directory (os error " ++ toString code ++ ")"
  | .permissionDenied _ code _ => "Permission denied (os error " ++ toString code ++ ")"
  | e => toString e

/-- What an action gives, or the text of its failure. -/
def attempt {α : Type} (action : IO α) : IO (Except String α) := do
  try
    return .ok (← action)
  catch e =>
    return .error (errorText e)

def systemFiles : CommandLine.Files IO where
  read path := attempt do return (← IO.FS.readBinFile path).toList
  write path bytes := attempt (IO.FS.writeBinFile path ⟨bytes.toArray⟩)
  append path bytes := attempt do
    let file ← IO.FS.Handle.mk path .append
    file.write ⟨bytes.toArray⟩
  clock := IO.monoNanosNow

end VoxelSwarm.Program

/-- Does what the command line asks for. -/
def main (arguments : List String) : IO UInt32 := do
  let (output, _) ←
    VoxelSwarm.CommandLine.perform VoxelSwarm.Program.systemFiles
      (VoxelSwarm.CommandLine.parse arguments)
  IO.print output.stdout
  IO.eprint output.stderr
  return output.code.toUInt32
