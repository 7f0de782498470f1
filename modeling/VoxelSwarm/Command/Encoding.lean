import VoxelSwarm.Command.Basic

/-!
# The binary form of a command

A command takes one byte and up to three operand bytes. The low three bits of the first byte say
which command it is, except that the values 255, 254 and 253 stand for `halt`, `wait` and `flip`. A
near displacement is three base-three digits above them; a linear one is a two-bit axis selector in
the first byte and a magnitude, raised by the greatest length, in the second; a far one is three
bytes raised by the greatest length.

`encode` writes a command whose arguments belong to their classes; `operandCount` and `decode` read
one, and leave it to the reader of the trace to check the arguments.
-/

namespace VoxelSwarm

namespace Displacement

/-- The digits of a near displacement, most significant first along `x`. -/
def nearCode (d : Displacement) : Nat := ((d.dx + 1) * 9 + (d.dy + 1) * 3 + (d.dz + 1)).toNat

/-- The displacement with given base-three digits. -/
def ofNearCode (code : Nat) : Displacement :=
  ⟨(code / 9 : Nat) - 1, (code / 3 % 3 : Nat) - 1, (code % 3 : Nat) - 1⟩

theorem nearCode_lt {d : Displacement} (h : d.Near) : d.nearCode < 27 := by
  have := h.bounds
  simp only [nearCode]
  omega

theorem ofNearCode_nearCode {d : Displacement} (h : d.Near) : ofNearCode d.nearCode = d := by
  have := h.bounds
  ext <;> simp only [ofNearCode, nearCode] <;> omega

/-- The displacement with three bytes, each raised by `farDistance`. -/
def ofFarBytes (x y z : UInt8) : Displacement :=
  ⟨x.toNat - farDistance, y.toNat - farDistance, z.toNat - farDistance⟩

/-- A component raised by the greatest length, which makes it a natural number. -/
def raise (bias : Nat) (value : Int) : Nat := (value + bias).toNat

def farBytes (d : Displacement) : List UInt8 :=
  [d.dx, d.dy, d.dz].map fun value => (raise farDistance value).toUInt8

end Displacement

namespace Axis

/-- The selector of an axis; zero is reserved. -/
def selector : Axis → Nat
  | .x => 1
  | .y => 2
  | .z => 3

/-- The axis of a selector, of which only the low two bits count. -/
def ofSelector? (code : Nat) : Option Axis :=
  match code % 4 with
  | 1 => some .x
  | 2 => some .y
  | 3 => some .z
  | _ => none

end Axis

namespace Displacement

def selector (d : Displacement) : Nat := (d.axis?.map Axis.selector).getD 0

/-- The raised magnitude of a linear displacement. -/
def magnitude (bias : Nat) (d : Displacement) : Nat :=
  (d.axis?.map fun axis => raise bias (d.component axis)).getD 0

def ofSelector? (code raised bias : Nat) : Option Displacement :=
  (Axis.ofSelector? code).map fun axis => along axis ((raised : Int) - bias)

end Displacement

namespace Command

open Displacement

/-- The number of operand bytes that follow a first byte. -/
def operandCount (byte : UInt8) : Nat :=
  if byte = 255 ∨ byte = 254 ∨ byte = 253 then 0
  else match byte.toNat % 8 with
    | 0 | 1 => 3
    | 4 | 5 => 1
    | _ => 0

def nearByte (nd : Displacement) (tail : Nat) : UInt8 := (nd.nearCode * 8 + tail).toUInt8

/-- The bytes of a command whose arguments belong to their classes. -/
def bytes : Command → List UInt8
  | .halt => [255]
  | .wait => [254]
  | .flip => [253]
  | .smove lld => [(lld.selector * 16 + 4).toUInt8, (lld.magnitude longDistance).toUInt8]
  | .lmove sld₁ sld₂ =>
    [(sld₂.selector * 64 + sld₁.selector * 16 + 12).toUInt8,
      (sld₂.magnitude shortDistance * 16 + sld₁.magnitude shortDistance).toUInt8]
  | .fusionP nd => [nearByte nd 7]
  | .fusionS nd => [nearByte nd 6]
  | .fission nd m => [nearByte nd 5, m]
  | .fill nd => [nearByte nd 3]
  | .void nd => [nearByte nd 2]
  | .gfill nd fd => nearByte nd 1 :: fd.farBytes
  | .gvoid nd fd => nearByte nd 0 :: fd.farBytes

/-- Writes a command, or reports the first argument outside its class. -/
def encode (c : Command) : Except CommandError (List UInt8) := do
  c.check
  return c.bytes

/-- The move with a first byte and one operand; the fourth bit tells the two kinds apart. Absent
when it uses the reserved axis selector. -/
def decodeMove (first operand : Nat) : Option Command :=
  if first / 8 % 2 = 0 then
    (ofSelector? (first / 16) (operand % 32) longDistance).map smove
  else do
    let sld₁ ← ofSelector? (first / 16) (operand % 16) shortDistance
    let sld₂ ← ofSelector? (first / 64) (operand / 16) shortDistance
    return lmove sld₁ sld₂

/-- The command with a first byte and its operands. Absent when it uses the reserved axis selector
or when the number of operands is not the one that the first byte asks for. -/
def decode (byte : UInt8) (operands : List UInt8) : Option Command :=
  if byte = 255 then some .halt
  else if byte = 254 then some .wait
  else if byte = 253 then some .flip
  else
    let nd := ofNearCode (byte.toNat / 8)
    match byte.toNat % 8, operands with
    | 0, [x, y, z] => some (.gvoid nd (ofFarBytes x y z))
    | 1, [x, y, z] => some (.gfill nd (ofFarBytes x y z))
    | 2, _ => some (.void nd)
    | 3, _ => some (.fill nd)
    | 4, [operand] => decodeMove byte.toNat operand.toNat
    | 5, [m] => some (.fission nd m)
    | 6, _ => some (.fusionS nd)
    | 7, _ => some (.fusionP nd)
    | _, _ => none

end Command

end VoxelSwarm
