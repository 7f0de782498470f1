/-!
# Base64

Bytes as text: three bytes are four symbols of six bits each. One or two bytes at the end are two or
three symbols, whose unused bits are zero, and no padding follows. `encode` writes this form and
`decode` reads no other; a fault names the first symbol that is wrong.
-/

namespace VoxelSwarm.Base64

/-- Why a text is not the form of any bytes. -/
inductive Fault where
  | invalidByte (offset : Nat) (byte : UInt8)
  | invalidLength
  | invalidLastSymbol (offset : Nat) (byte : UInt8)
  | invalidPadding
  deriving DecidableEq, Repr

def Fault.message : Fault → String
  | .invalidByte offset byte =>
    "Invalid byte " ++ toString byte.toNat ++ ", offset " ++ toString offset ++ "."
  | .invalidLength => "Encoded text cannot have a 6-bit remainder."
  | .invalidLastSymbol offset byte =>
    "Invalid last symbol " ++ toString byte.toNat ++ ", offset " ++ toString offset ++ "."
  | .invalidPadding => "Invalid padding"

def symbol (value : Nat) : UInt8 :=
  if value < 26 then (65 + value).toUInt8
  else if value < 52 then (71 + value).toUInt8
  else if value < 62 then (value - 4).toUInt8
  else if value = 62 then 43
  else 47

def value? (byte : UInt8) : Option Nat :=
  let n := byte.toNat
  if 65 ≤ n ∧ n ≤ 90 then some (n - 65)
  else if 97 ≤ n ∧ n ≤ 122 then some (n - 71)
  else if 48 ≤ n ∧ n ≤ 57 then some (n + 4)
  else if n = 43 then some 62
  else if n = 47 then some 63
  else none

/-- The symbol that other forms fill the last group up with. -/
def padding : UInt8 := 61

/-! ## Writing -/

/-- Writes bytes in groups of three; the symbols written so far are in reverse. -/
def encodeFrom (done : List UInt8) : List UInt8 → List UInt8
  | a :: b :: c :: rest =>
    let n := (a.toNat * 256 + b.toNat) * 256 + c.toNat
    encodeFrom
      (symbol (n % 64) :: symbol (n / 64 % 64) :: symbol (n / 4096 % 64) :: symbol (n / 262144) ::
        done) rest
  | [a, b] =>
    let n := (a.toNat * 256 + b.toNat) * 4
    (symbol (n % 64) :: symbol (n / 64 % 64) :: symbol (n / 4096) :: done).reverse
  | [a] =>
    let n := a.toNat * 16
    (symbol (n % 64) :: symbol (n / 64) :: done).reverse
  | [] => done.reverse

def encode (bytes : List UInt8) : List UInt8 := encodeFrom [] bytes

/-! ## Reading -/

/-- The values of symbols, up to the first byte that is not one; and the offset of that byte and
what follows it. -/
def valuesFrom (done : List Nat) (offset : Nat) :
    List UInt8 → List Nat × Option (Nat × UInt8 × List UInt8)
  | [] => (done.reverse, none)
  | byte :: rest =>
    match value? byte with
    | none => (done.reverse, some (offset, byte, rest))
    | some value => valuesFrom (value :: done) (offset + 1) rest

/-- The fault of a text with a byte that is not a symbol. A padding symbol is misplaced as long as
the group has fewer than two symbols, or when anything but padding follows it; that it is there at
all is the last complaint. -/
def strayFault (size offset : Nat) (byte : UInt8) (rest : List UInt8) : Fault :=
  if byte ≠ padding then .invalidByte offset byte
  else if offset % 4 < 2 ∨ rest.any (· ≠ padding) ∨ offset / 4 < (size - 1) / 4 then
    .invalidByte offset byte
  else .invalidPadding

/-- The bytes of complete groups of four values and of a last group of two or three; the bytes read
so far are in reverse. -/
def bytesFrom (done : List UInt8) : List Nat → List UInt8
  | a :: b :: c :: d :: rest =>
    let n := ((a * 64 + b) * 64 + c) * 64 + d
    bytesFrom (n.toUInt8 :: (n / 256).toUInt8 :: (n / 65536).toUInt8 :: done) rest
  | [a, b, c] =>
    let n := (a * 64 + b) * 64 + c
    ((n / 4).toUInt8 :: (n / 1024).toUInt8 :: done).reverse
  | [a, b] =>
    let n := a * 64 + b
    ((n / 16).toUInt8 :: done).reverse
  | _ => done.reverse

/-- The bits of the last symbol that belong to no byte. -/
def unusedBits (values : List Nat) : Nat :=
  match values.length % 4 with
  | 2 => values.getLastD 0 % 16
  | 3 => values.getLastD 0 % 4
  | _ => 0

/-- The fault of a text whose length is not the length of any form. -/
def lengthFault? (text : List UInt8) : Option Fault :=
  if text.length % 4 ≠ 1 then none
  else
    match text.getLast? with
    | some byte =>
      if byte ≠ padding ∧ (value? byte).isNone then some (.invalidByte (text.length - 1) byte)
      else some .invalidLength
    | none => none

def decode (text : List UInt8) : Except Fault (List UInt8) :=
  match lengthFault? text with
  | some fault => .error fault
  | none =>
    match valuesFrom [] 0 text with
    | (_, some (offset, byte, rest)) => .error (strayFault text.length offset byte rest)
    | (values, none) =>
      if unusedBits values ≠ 0 then
        .error (.invalidLastSymbol (text.length - 1) (text.getLastD 0))
      else .ok (bytesFrom [] values)

end VoxelSwarm.Base64
