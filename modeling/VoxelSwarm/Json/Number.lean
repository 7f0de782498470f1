/-!
# Numbers in JSON texts

A number without a point and an exponent is an integer as long as 64 bits hold it. Any other number
is a floating-point number, read from as many leading digits as 64 bits hold, times a power of ten.
A number too great for that format is refused.
-/

namespace VoxelSwarm.Json

inductive Number where
  | unsigned (n : Nat)
  /-- A negative integer. -/
  | signed (n : Int)
  | float (x : Float)

/-- A number as it is spelled. -/
structure Literal where
  negative : Bool
  whole : List Nat
  fraction : Option (List Nat)
  /-- Whether the exponent is negative, and its digits. -/
  exponent : Option (Bool × List Nat)

namespace Literal

def greatest : Nat := Nat.pow 2 64 - 1

/-- Appends digits to a number as long as 64 bits hold it, and gives the number of digits left. -/
def appendFitting (n : Nat) : List Nat → Nat × Nat
  | [] => (n, 0)
  | d :: rest =>
    if n * 10 + d ≤ greatest then appendFitting (n * 10 + d) rest else (n, rest.length + 1)

/-- `x · 10 ^ exponent`, in steps that powers of ten in the format allow, unless it is too great. -/
def scale (x : Float) (exponent : Int) : (fuel : Nat) → Option Float
  | 0 => some x
  | fuel + 1 =>
    if exponent.natAbs ≤ 308 then
      let power := Float.ofScientific 1 false exponent.natAbs
      if 0 ≤ exponent then
        let y := x * power
        if y.isInf then none else some y
      else some (x / power)
    else if x == 0 then some x
    else if 0 ≤ exponent then none
    else scale (x / Float.ofScientific 1 false 308) (exponent + 308) fuel

/-- The greatest exponent that is told apart from greater ones. -/
def exponentLimit : Nat := Nat.pow 2 31 - 1

/-- The magnitude of a number with a point or an exponent, or with more digits than 64 bits hold. -/
def magnitude? (l : Literal) : Option Float :=
  let (wholePart, dropped) := appendFitting 0 l.whole
  let fraction := l.fraction.getD []
  let (digits, left) := appendFitting wholePart fraction
  let start : Int := (dropped : Int) - (fraction.length - left : Nat)
  match l.exponent with
  | none => scale (Float.ofNat digits) start 4
  | some (negative, exponent) =>
    let n := exponent.foldl (fun n d => n * 10 + d) 0
    if exponentLimit < n then
      if digits ≠ 0 ∧ ¬negative then none else some 0
    else scale (Float.ofNat digits) (if negative then start - n else start + n) 4

/-- The number that is spelled, unless it is too great. -/
def value? (l : Literal) : Option Number :=
  let n := l.whole.foldl (fun n d => n * 10 + d) 0
  if l.fraction.isNone ∧ l.exponent.isNone ∧ ¬l.negative ∧ n ≤ greatest then some (.unsigned n)
  else if l.fraction.isNone ∧ l.exponent.isNone ∧ l.negative ∧ 0 < n ∧ n ≤ Nat.pow 2 63 then
    some (.signed (-n))
  else l.magnitude?.map fun x => .float (if l.negative then -x else x)

end Literal

end VoxelSwarm.Json
