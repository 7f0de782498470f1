import VoxelSwarm.Command.Encoding

/-!
# Traces

A trace is a sequence of encoded commands. A `TraceReader` holds the bytes of a trace and the
offset of the next one to read; `next` reads one command and leaves the cursor after the bytes it
has consumed, also when it fails. A whole trace is written by `encode` and read by `decode`.
-/

namespace VoxelSwarm

inductive TraceError where
  /-- No byte is left, or fewer than the command takes. -/
  | endOfTrace (offset : Nat)
  /-- A linear displacement uses the reserved axis selector. -/
  | invalidAxis (offset : Nat) (byte : UInt8)
  /-- An argument is outside its class. -/
  | illFormed (offset : Nat) (cause : CommandError)
  deriving DecidableEq, Repr

def binaryDigits (byte : UInt8) : String :=
  String.ofList ((List.range 8).map fun k => if byte.toNat.testBit (7 - k) then '1' else '0')

def TraceError.message : TraceError → String
  | .endOfTrace offset => "unexpected end of trace at byte " ++ toString offset
  | .invalidAxis offset byte =>
    "invalid axis selector in byte 0b" ++ binaryDigits byte ++ " at offset " ++ toString offset
  | .illFormed offset cause =>
    "ill-formed command at offset " ++ toString offset ++ ": " ++ cause.message

/-- A cursor in the bytes of a trace. -/
structure TraceReader where
  bytes : Array UInt8
  offset : Nat
  deriving DecidableEq, Inhabited

namespace TraceReader

def ofBytes (bytes : List UInt8) : TraceReader := ⟨bytes.toArray, 0⟩

/-- Every byte has been consumed. -/
def exhausted (r : TraceReader) : Bool := decide (r.bytes.size ≤ r.offset)

def rewind (r : TraceReader) : TraceReader := { r with offset := 0 }

def remaining (r : TraceReader) : Nat := r.bytes.size - r.offset

/-- Decodes a command and checks its arguments. -/
def decodeAt (offset : Nat) (byte : UInt8) (operands : List UInt8) : Except TraceError Command :=
  match Command.decode byte operands with
  | none => .error (.invalidAxis offset byte)
  | some c =>
    match c.check with
    | .error cause => .error (.illFormed offset cause)
    | .ok () => .ok c

def next (r : TraceReader) : Except TraceError Command × TraceReader :=
  match r.bytes[r.offset]? with
  | none => (.error (.endOfTrace r.offset), r)
  | some byte =>
    let stop := r.offset + 1 + Command.operandCount byte
    if stop ≤ r.bytes.size then
      (decodeAt r.offset byte (r.bytes.extract (r.offset + 1) stop).toList,
        { r with offset := stop })
    else (.error (.endOfTrace r.bytes.size), { r with offset := r.bytes.size })

theorem remaining_next_lt (r : TraceReader) (h : r.exhausted = false) :
    r.next.2.remaining < r.remaining := by
  have h : r.offset < r.bytes.size := by simpa [exhausted] using h
  unfold next
  rw [Array.getElem?_eq_getElem h]
  dsimp only
  split <;> simp only [remaining] <;> omega

/-- Reads commands until every byte is consumed. -/
def readAll (r : TraceReader) : Except TraceError (List Command) :=
  if h : r.exhausted then .ok []
  else
    have := r.remaining_next_lt (by simpa using h)
    match r.next.1 with
    | .error e => .error e
    | .ok c => (readAll r.next.2).map (c :: ·)
termination_by r.remaining

end TraceReader

namespace Trace

/-- Reads a whole trace. -/
def decode (bytes : List UInt8) : Except TraceError (List Command) :=
  (TraceReader.ofBytes bytes).readAll

/-- Writes a whole trace, or reports the first command that has an argument outside its class. -/
def encode (cs : List Command) : Except CommandError (List UInt8) := do
  return (← cs.mapM Command.encode).flatten

end Trace

end VoxelSwarm
