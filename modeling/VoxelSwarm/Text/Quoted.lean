import VoxelSwarm.Text.Unprintable

/-!
# Quoted texts

A text as diagnostics show it: in double quotes, with backslashes before quotes and backslashes, and
with every character that does not print escaped.
-/

namespace VoxelSwarm.Quoted

/-- The hexadecimal digits of a number, in braces. -/
def braced (n : Nat) : List Char := '\x7b' :: Nat.toDigits 16 n ++ ['\x7d']

/-- A character inside quotes. -/
def escaped (c : Char) : List Char :=
  if c = '"' then ['\\', '"']
  else if c = '\\' then ['\\', '\\']
  else if c = '\n' then ['\\', 'n']
  else if c = '\r' then ['\\', 'r']
  else if c = '\t' then ['\\', 't']
  else if c.toNat = 0 then ['\\', '0']
  else if 32 ≤ c.toNat ∧ c.toNat < 127 then [c]
  else if Unprintable.holds c then ['\\', 'u'] ++ braced c.toNat
  else [c]

def encode (text : String) : String :=
  String.ofList ('"' :: text.toList.flatMap escaped ++ ['"'])

end VoxelSwarm.Quoted
