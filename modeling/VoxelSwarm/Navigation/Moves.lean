import Std.Data.HashSet.Lemmas
import VoxelSwarm.Command.Basic
import VoxelSwarm.Matrix.Basic
import VoxelSwarm.Step.Path

/-!
# Moves of one bot

Which voxels a lone bot can reach with one command: straight through void voxels, or around one
corner in two short lines. `moveOffsets` lists the displacements and `moveCommand?` finds the
command for one of them.
-/

namespace VoxelSwarm

namespace Displacement

/-- The parts of a displacement along each axis, without those that are zero. -/
def legs (d : Displacement) : List Displacement :=
  (Axis.all.map fun axis => along axis (d.component axis)).filter (· ≠ zero)

/-- The displacements of a list that have not been seen, each one once. -/
def distinct (seen : Std.HashSet Displacement) : List Displacement → List Displacement
  | [] => []
  | d :: ds => if d ∈ seen then distinct seen ds else d :: distinct (seen.insert d) ds

theorem mem_distinct {seen : Std.HashSet Displacement} {ds : List Displacement} {d : Displacement} :
    d ∈ distinct seen ds ↔ d ∈ ds ∧ d ∉ seen := by
  induction ds generalizing seen with
  | nil => simp [distinct]
  | cons e ds ih =>
    unfold distinct
    split
    · next he =>
      rw [ih, List.mem_cons]
      grind
    · next he =>
      rw [List.mem_cons, ih, List.mem_cons, Std.HashSet.mem_insert]
      grind

end Displacement

namespace Matrix

def isVoid (m : Matrix) (p : Position) : Bool := decide (m.Holds p) && !m.get p

/-- The displacements from `start` toward a face, after the first `i` of them, at most `n` more and
no further than void voxels go. -/
def ray (m : Matrix) (start : Position) (face : Displacement) : (i n : Nat) → List Displacement
  | _, 0 => []
  | i, n + 1 =>
    let d := face.scale (i + 1)
    if m.isVoid (start + d) then d :: ray m start face (i + 1) n else []

/-- The displacements in a straight line through void voxels, up to a distance, face by face. -/
def linearOffsets (m : Matrix) (start : Position) (distance : Nat) : List Displacement :=
  Displacement.faces.flatMap fun face => m.ray start face 0 distance

/-- The displacements around one corner, by the voxel at the corner. -/
def cornerOffsets (m : Matrix) (start : Position) : List Displacement :=
  (m.linearOffsets start Displacement.shortDistance).flatMap fun d =>
    ((m.linearOffsets (start + d) Displacement.shortDistance).filter
      fun e => d.axis? ≠ e.axis?).map (d + ·)

/-- The displacements of the moves from a voxel, straight ones first. One around a corner is listed
twice when both corners can be taken. -/
def moves (m : Matrix) (start : Position) : List Displacement :=
  m.linearOffsets start Displacement.longDistance ++ m.cornerOffsets start

/-- The displacements of the moves from a voxel, each one once. -/
def moveOffsets (m : Matrix) (start : Position) : List Displacement :=
  Displacement.distinct ∅ (m.moves start)

theorem mem_moveOffsets {m : Matrix} {start : Position} {d : Displacement} :
    d ∈ m.moveOffsets start ↔ d ∈ m.moves start := by
  simp [moveOffsets, Displacement.mem_distinct]

/-- All voxels of a straight line, apart from its start, are inside the grid and void. -/
def clearPath (m : Matrix) (start : Position) (d : Displacement) : Bool :=
  (straightPath start d).tail.all m.isVoid

/-- The move by two short lines, if they are clear. -/
def bentCommand? (m : Matrix) (start : Position) (d e : Displacement) : Option Command :=
  if d.ShortLinear ∧ e.ShortLinear ∧ m.clearPath start d ∧ m.clearPath (start + d) e then
    some (.lmove d e)
  else none

/-- A command that moves a bot from one voxel to another: straight if possible, else around a
corner. -/
def moveCommand? (m : Matrix) (start target : Position) : Option Command :=
  let d := target - start
  if d.LongLinear ∧ m.clearPath start d then some (.smove d)
  else match d.legs with
    | [a, b] => m.bentCommand? start a b <|> m.bentCommand? start b a
    | _ => none

end Matrix

end VoxelSwarm
