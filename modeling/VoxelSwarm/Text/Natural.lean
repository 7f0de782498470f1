/-!
# Natural numbers as text

Decimal digits, after a plus sign or not.
-/

namespace VoxelSwarm.Natural

def ofDigits (cs : List Char) : Nat := cs.foldl (fun n c => n * 10 + (c.toNat - 48)) 0

/-- The natural number, at most `limit`, that a text spells. -/
def parse? (limit : Nat) (cs : List Char) : Option Nat :=
  let digits := match cs with
    | '+' :: rest => rest
    | _ => cs
  if ¬digits.isEmpty ∧ digits.all Char.isDigit ∧ ofDigits digits ≤ limit then
    some (ofDigits digits)
  else none

end VoxelSwarm.Natural
