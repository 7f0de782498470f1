/-!
# Displacements

A `Displacement` is a vector between two voxels of the grid. This module holds its two lengths,
the classes that command arguments are drawn from (`ShortLinear`, `LongLinear`, `Near`, `Far`)
and the six unit steps to the faces of a voxel.
-/

namespace VoxelSwarm

/-- The three axes of the grid; `y` points up and `y = 0` is the ground plane. -/
inductive Axis where
  | x
  | y
  | z
  deriving DecidableEq, Repr, Inhabited

namespace Axis

def all : List Axis := [.x, .y, .z]

def name : Axis → String
  | .x => "X"
  | .y => "Y"
  | .z => "Z"

end Axis

/-- A vector between two voxels. -/
@[ext]
structure Displacement where
  dx : Int
  dy : Int
  dz : Int
  deriving DecidableEq, Hashable, Repr, Inhabited

namespace Displacement

/-- The displacement that goes nowhere. -/
def zero : Displacement := ⟨0, 0, 0⟩

/-- The displacement of `value` along one axis. -/
def along : Axis → Int → Displacement
  | .x, value => ⟨value, 0, 0⟩
  | .y, value => ⟨0, value, 0⟩
  | .z, value => ⟨0, 0, value⟩

def component (d : Displacement) : Axis → Int
  | .x => d.dx
  | .y => d.dy
  | .z => d.dz

instance : Add Displacement where
  add d e := ⟨d.dx + e.dx, d.dy + e.dy, d.dz + e.dz⟩

instance : Neg Displacement where
  neg d := ⟨-d.dx, -d.dy, -d.dz⟩

/-- A displacement repeated `k` times. -/
def scale (d : Displacement) (k : Int) : Displacement := ⟨d.dx * k, d.dy * k, d.dz * k⟩

/-- Displacements are ordered by `dx`, then `dy`, then `dz`. -/
instance : LT Displacement where
  lt d e := d.dx < e.dx ∨ d.dx = e.dx ∧ (d.dy < e.dy ∨ d.dy = e.dy ∧ d.dz < e.dz)

instance (d e : Displacement) : Decidable (d < e) :=
  inferInstanceAs (Decidable (_ ∨ _ ∧ (_ ∨ _ ∧ _)))

instance : Ord Displacement where
  compare d e := compareOfLessAndEq d e

@[simp] theorem add_dx (d e : Displacement) : (d + e).dx = d.dx + e.dx := rfl
@[simp] theorem add_dy (d e : Displacement) : (d + e).dy = d.dy + e.dy := rfl
@[simp] theorem add_dz (d e : Displacement) : (d + e).dz = d.dz + e.dz := rfl
@[simp] theorem neg_dx (d : Displacement) : (-d).dx = -d.dx := rfl
@[simp] theorem neg_dy (d : Displacement) : (-d).dy = -d.dy := rfl
@[simp] theorem neg_dz (d : Displacement) : (-d).dz = -d.dz := rfl

/-! ## Lengths -/

/-- The Manhattan length: the number of unit steps. -/
def mlen (d : Displacement) : Nat := d.dx.natAbs + d.dy.natAbs + d.dz.natAbs

/-- The Chebyshev length: the largest component in absolute value. -/
def clen (d : Displacement) : Nat := max (max d.dx.natAbs d.dy.natAbs) d.dz.natAbs

/-- The number of axes along which the displacement moves. -/
def dimension (d : Displacement) : Nat :=
  (if d.dx ≠ 0 then 1 else 0) + (if d.dy ≠ 0 then 1 else 0) + (if d.dz ≠ 0 then 1 else 0)

/-- Every component replaced by its sign. -/
def sign (d : Displacement) : Displacement := ⟨d.dx.sign, d.dy.sign, d.dz.sign⟩

/-! ## Classes of displacements -/

def shortDistance : Nat := 5

/-- The longest long linear displacement. -/
def longDistance : Nat := 15

/-- The longest far displacement, by Chebyshev length. -/
def farDistance : Nat := 30

/-- Moves along exactly one axis. -/
def Linear (d : Displacement) : Prop := d.dimension = 1

/-- Linear and at most `shortDistance` long. -/
def ShortLinear (d : Displacement) : Prop := d.Linear ∧ d.mlen ≤ shortDistance

/-- Linear and at most `longDistance` long. -/
def LongLinear (d : Displacement) : Prop := d.Linear ∧ d.mlen ≤ longDistance

/-- Leads to a voxel that shares a face. -/
def Adjacent (d : Displacement) : Prop := d.mlen = 1

/-- Leads to a voxel that shares a face or an edge. -/
def Near (d : Displacement) : Prop := d.clen = 1 ∧ (d.mlen = 1 ∨ d.mlen = 2)

/-- Not zero and at most `farDistance` along every axis. -/
def Far (d : Displacement) : Prop := 0 < d.clen ∧ d.clen ≤ farDistance

instance (d : Displacement) : Decidable d.Linear := inferInstanceAs (Decidable (_ = _))
instance (d : Displacement) : Decidable d.ShortLinear := inferInstanceAs (Decidable (_ ∧ _))
instance (d : Displacement) : Decidable d.LongLinear := inferInstanceAs (Decidable (_ ∧ _))
instance (d : Displacement) : Decidable d.Adjacent := inferInstanceAs (Decidable (_ = _))
instance (d : Displacement) : Decidable d.Near := inferInstanceAs (Decidable (_ ∧ (_ ∨ _)))
instance (d : Displacement) : Decidable d.Far := inferInstanceAs (Decidable (_ ∧ _))

theorem Near.bounds {d : Displacement} (h : d.Near) :
    (-1 ≤ d.dx ∧ d.dx ≤ 1) ∧ (-1 ≤ d.dy ∧ d.dy ≤ 1) ∧ (-1 ≤ d.dz ∧ d.dz ≤ 1) := by
  have := h.1
  simp only [clen] at this
  omega

/-- The axis of a linear displacement. -/
def axis? (d : Displacement) : Option Axis :=
  if ¬d.Linear then none
  else if d.dx ≠ 0 then some .x
  else if d.dy ≠ 0 then some .y
  else some .z

/-- The six unit steps to the faces of a voxel, the three backward ones first. -/
def faces : List Displacement :=
  [⟨-1, 0, 0⟩, ⟨0, -1, 0⟩, ⟨0, 0, -1⟩, ⟨1, 0, 0⟩, ⟨0, 1, 0⟩, ⟨0, 0, 1⟩]

/-- A displacement is written between angle brackets. -/
def text (d : Displacement) : String :=
  "<" ++ toString d.dx ++ ", " ++ toString d.dy ++ ", " ++ toString d.dz ++ ">"

end Displacement

/-- The classes that command arguments are drawn from. -/
inductive DisplacementClass where
  | shortLinear
  | longLinear
  | near
  | far
  deriving DecidableEq, Repr, Inhabited

namespace DisplacementClass

def Admits : DisplacementClass → Displacement → Prop
  | .shortLinear, d => d.ShortLinear
  | .longLinear, d => d.LongLinear
  | .near, d => d.Near
  | .far, d => d.Far

instance (c : DisplacementClass) (d : Displacement) : Decidable (c.Admits d) := by
  cases c <;> unfold Admits <;> infer_instance

def text : DisplacementClass → String
  | .shortLinear => "short linear"
  | .longLinear => "long linear"
  | .near => "near"
  | .far => "far"

end DisplacementClass

end VoxelSwarm
