/-!
# UTF-8

Texts as bytes: one to four bytes for each character, in the shortest form and without surrogates.
`decode` refuses every other sequence of bytes.
-/

namespace VoxelSwarm.Utf8

def encode (text : String) : List UInt8 := text.toList.flatMap String.utf8EncodeChar

/-- The six bits of a byte that continues a character. -/
def continuation? (byte : UInt8) : Option Nat :=
  if 128 ≤ byte.toNat ∧ byte.toNat < 192 then some (byte.toNat - 128) else none

/-- The character with a given number, if it takes `least` or more and is no surrogate. -/
def scalar? (least code : Nat) : Option Char :=
  if least ≤ code ∧ code.isValidChar then some (Char.ofNat code) else none

/-- The character at the start of a sequence of bytes, and the bytes after it. -/
def step? : List UInt8 → Option (Char × List UInt8)
  | [] => none
  | a :: rest =>
    let lead := a.toNat
    if lead < 128 then some (Char.ofNat lead, rest)
    else if 192 ≤ lead ∧ lead < 224 then
      match rest with
      | b :: rest => do
        let code := (lead - 192) * 64 + (← continuation? b)
        return (← scalar? 128 code, rest)
      | _ => none
    else if 224 ≤ lead ∧ lead < 240 then
      match rest with
      | b :: c :: rest => do
        let code := ((lead - 224) * 64 + (← continuation? b)) * 64 + (← continuation? c)
        return (← scalar? 2048 code, rest)
      | _ => none
    else if 240 ≤ lead ∧ lead < 248 then
      match rest with
      | b :: c :: d :: rest => do
        let code := (((lead - 240) * 64 + (← continuation? b)) * 64 + (← continuation? c)) * 64 +
          (← continuation? d)
        return (← scalar? 65536 code, rest)
      | _ => none
    else none

/-- Reads characters until no byte is left; the characters read so far are in reverse. Every
character takes a byte, so the number of bytes is `fuel` enough. -/
def decodeFrom : (fuel : Nat) → List Char → List UInt8 → Option (List Char)
  | _, done, [] => some done.reverse
  | 0, _, _ :: _ => none
  | fuel + 1, done, bytes =>
    match step? bytes with
    | none => none
    | some (c, rest) => decodeFrom fuel (c :: done) rest

def decode (bytes : List UInt8) : Option String :=
  (decodeFrom bytes.length [] bytes).map String.ofList

end VoxelSwarm.Utf8
