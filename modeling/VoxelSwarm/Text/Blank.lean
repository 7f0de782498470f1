/-!
# Blanks

The characters between words, of every script, and cutting them off the ends of a text.
-/

namespace VoxelSwarm.Blank

/-- Whether a character is a blank: the `White_Space` characters of Unicode. -/
def holds (c : Char) : Bool :=
  let n := c.toNat
  (9 ≤ n && n ≤ 13) || n == 32 || n == 0x85 || n == 0xA0 || n == 0x1680 ||
    (0x2000 ≤ n && n ≤ 0x200A) || n == 0x2028 || n == 0x2029 || n == 0x202F || n == 0x205F ||
    n == 0x3000

/-- The characters between the first and the last that are not blank. -/
def trim (cs : List Char) : List Char := ((cs.dropWhile holds).reverse.dropWhile holds).reverse

end VoxelSwarm.Blank
