import VoxelSwarm.Geometry.Displacement

/-!
# Commands

A `Command` is what one bot does in one step. Each argument has to belong to a class of
displacements; `arguments` lists them with their classes, and `check` reports the first argument
that is outside its class.
-/

namespace VoxelSwarm

/-- One instruction for one bot. -/
inductive Command where
  /-- Ends the run; the last bot says it at the origin. -/
  | halt
  /-- Does nothing. -/
  | wait
  /-- Toggles the harmonics. -/
  | flip
  /-- Moves straight. -/
  | smove (lld : Displacement)
  /-- Moves straight twice. -/
  | lmove (sld₁ sld₂ : Displacement)
  /-- Absorbs the bot at a near voxel. -/
  | fusionP (nd : Displacement)
  /-- Is absorbed by the bot at a near voxel. -/
  | fusionS (nd : Displacement)
  /-- Spawns a bot at a near voxel and hands it `m` seeds besides its own identifier. -/
  | fission (nd : Displacement) (m : UInt8)
  /-- Fills a near voxel. -/
  | fill (nd : Displacement)
  /-- Voids a near voxel. -/
  | void (nd : Displacement)
  /-- Fills a box together with the bots at its other corners. -/
  | gfill (nd fd : Displacement)
  /-- Voids a box together with the bots at its other corners. -/
  | gvoid (nd fd : Displacement)
  deriving DecidableEq, Repr, Inhabited

/-- An argument outside its class. -/
structure CommandError where
  command : String
  expected : DisplacementClass
  argument : Displacement
  deriving DecidableEq, Repr

def CommandError.message (e : CommandError) : String :=
  e.command ++ " requires a " ++ e.expected.text ++ " displacement, got " ++ e.argument.text

namespace Command

def name : Command → String
  | .halt => "Halt"
  | .wait => "Wait"
  | .flip => "Flip"
  | .smove _ => "SMove"
  | .lmove _ _ => "LMove"
  | .fusionP _ => "FusionP"
  | .fusionS _ => "FusionS"
  | .fission _ _ => "Fission"
  | .fill _ => "Fill"
  | .void _ => "Void"
  | .gfill _ _ => "GFill"
  | .gvoid _ _ => "GVoid"

/-- The displacements of the command, each with the class it has to belong to. -/
def arguments : Command → List (DisplacementClass × Displacement)
  | .halt | .wait | .flip => []
  | .smove lld => [(.longLinear, lld)]
  | .lmove sld₁ sld₂ => [(.shortLinear, sld₁), (.shortLinear, sld₂)]
  | .fusionP nd | .fusionS nd | .fission nd _ | .fill nd | .void nd => [(.near, nd)]
  | .gfill nd fd | .gvoid nd fd => [(.near, nd), (.far, fd)]

/-- Every argument belongs to its class. -/
def Valid (c : Command) : Prop := ∀ a ∈ c.arguments, a.1.Admits a.2

instance (c : Command) : Decidable c.Valid :=
  inferInstanceAs (Decidable (∀ a ∈ c.arguments, a.1.Admits a.2))

/-- Reports the first argument outside its class. -/
def check (c : Command) : Except CommandError Unit :=
  match c.arguments.find? fun a => ¬a.1.Admits a.2 with
  | some (expected, argument) => .error ⟨c.name, expected, argument⟩
  | none => .ok ()

theorem check_eq_ok_iff {c : Command} : c.check = .ok () ↔ c.Valid := by
  rw [check]
  split
  · next heq =>
    have hmem := List.mem_of_find?_eq_some heq
    have hnot := List.find?_some heq
    exact ⟨fun h => (nomatch h), fun h => absurd (h _ hmem) (by simpa using hnot)⟩
  · next heq =>
    exact ⟨fun _ a ha => by simpa using List.find?_eq_none.1 heq a ha, fun _ => rfl⟩

/-- The command itself when every argument belongs to its class. -/
def checked (c : Command) : Except CommandError Command := do
  c.check
  return c

/-- The whole displacement of a move. -/
def offset? : Command → Option Displacement
  | .smove lld => some lld
  | .lmove sld₁ sld₂ => some (sld₁ + sld₂)
  | _ => none

/-- A command is written as its name followed by its arguments. -/
def text (c : Command) : String :=
  let seeds := match c with
    | .fission _ m => [toString m.toNat]
    | _ => []
  " ".intercalate (c.name :: c.arguments.map (fun a => a.2.text) ++ seeds)

end Command

end VoxelSwarm
