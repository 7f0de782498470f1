/-!
# Paths

The name that a file is known by: the last part of its path, without the last point and what follows
it.
-/

namespace VoxelSwarm.Path

/-- The parts of a path, without those that lead nowhere. -/
def parts (path : String) : List String :=
  (path.splitOn "/").filter fun part => part ≠ "" && part ≠ "."

/-- A name without its last point and what follows it, unless nothing stands before the point. -/
def withoutExtension (name : List Char) : List Char :=
  match (name.reverse.dropWhile (· ≠ '.')).tail with
  | [] => name
  | before => before.reverse

/-- The name of the file at a path, without its extension. A path that ends nowhere, or in the
directory above, has none. -/
def stem (path : String) : String :=
  match (parts path).getLast? with
  | none | some ".." => ""
  | some name => String.ofList (withoutExtension name.toList)

end VoxelSwarm.Path
