import Mathlib.Data.List.Forall2
import VoxelSwarm.Proofs.Command.Reads

/-!
# The canonical bytes of a trace

A trace that is read is the row of the bytes of its commands, each of which is read from its own
bytes (`Loop.spelled`). So writing what was read gives the same row again, in which only the bits of
straight moves that have no meaning are cleared (`encode_decode`). No other bit of a trace is free.
-/

namespace VoxelSwarm

/-- The command is read from just these bytes, and its arguments belong to their classes. -/
def Command.Spelled (c : Command) (part : List UInt8) : Prop :=
  ∃ byte operands, part = byte :: operands ∧ operands.length = Command.operandCount byte ∧
    Command.decode byte operands = some c ∧ c.Valid

namespace Command.Spelled

variable {c : Command} {cs : List Command} {part : List UInt8} {parts : List (List UInt8)}

theorem bytes_eq (h : c.Spelled part) : c.bytes = c.meaningful part := by
  obtain ⟨byte, operands, rfl, hlength, hdecode, hvalid⟩ := h
  exact bytes_of_decode hlength hdecode hvalid

theorem valid (h : c.Spelled part) : c.Valid := by
  obtain ⟨-, -, -, -, -, hvalid⟩ := h
  exact hvalid

theorem decode_eq (h : c.Spelled part) : Trace.decode part = .ok [c] := by
  obtain ⟨byte, operands, rfl, hlength, hdecode, hvalid⟩ := h
  have hfronts : (TraceReader.ofBytes (byte :: operands)).Fronts byte operands :=
    ⟨by rw [hlength, width_eq], List.prefix_rfl⟩
  have hnext := TraceReader.next_of_fronts hfronts
  rw [TraceReader.decodeAt_eq_ok_iff.2 ⟨hdecode, hvalid⟩] at hnext
  have hrest : ((TraceReader.ofBytes (byte :: operands)).forward (width byte)).unread = [] := by
    rw [TraceReader.unread_forward, TraceReader.unread_ofBytes, ← hfronts.width]
    exact List.drop_length
  rw [Trace.decode, TraceReader.readAll_of_next rfl hnext,
    TraceReader.readAll_of_exhausted (TraceReader.exhausted_iff.2 hrest)]
  rfl

theorem forall_check (h : List.Forall₂ Spelled cs parts) : ∀ c ∈ cs, c.check = .ok () := by
  induction h with
  | nil => exact List.forall_mem_nil _
  | cons hfirst _ ih => exact List.forall_mem_cons.2 ⟨check_eq_ok_iff.2 hfirst.valid, ih⟩

theorem flatMap_bytes (h : List.Forall₂ Spelled cs parts) :
    cs.flatMap Command.bytes = (List.zipWith meaningful cs parts).flatten := by
  induction h with
  | nil => rfl
  | cons hfirst _ ih =>
    rw [List.flatMap_cons, hfirst.bytes_eq, ih, List.zipWith_cons_cons, List.flatten_cons]

theorem length_flatMap_bytes (h : List.Forall₂ Spelled cs parts) :
    (cs.flatMap Command.bytes).length = parts.flatten.length := by
  induction h with
  | nil => rfl
  | cons hfirst _ ih =>
    rw [List.flatMap_cons, List.length_append, ih, hfirst.bytes_eq, length_meaningful,
      List.flatten_cons, List.length_append]

end Command.Spelled

namespace TraceReader

variable {r r' : TraceReader} {c : Command} {cs : List Command} {n : Nat}

theorem spelled_of_next (h : r.next = (.ok c, r')) :
    ∃ part, c.Spelled part ∧ part ++ r'.unread = r.unread := by
  obtain ⟨byte, operands, hfronts, hdecode, hvalid⟩ := next_eq_ok_iff.1 (congrArg Prod.fst h)
  obtain ⟨rest, hrest⟩ := hfronts.unread
  refine ⟨byte :: operands, ⟨byte, operands, rfl, hfronts.length, hdecode, hvalid⟩, ?_⟩
  have hnext : r' = r.forward (Command.width byte) := by
    rw [next_of_fronts hfronts] at h
    exact (congrArg Prod.snd h).symm
  rw [hnext, unread_forward, ← hrest, ← hfronts.width]
  exact congrArg _ List.drop_left

theorem Loop.spelled {x : Except TraceError (List Command)} (h : Loop n r x) (hx : x = .ok cs) :
    ∃ parts, List.Forall₂ Command.Spelled cs parts ∧ parts.flatten = r.unread := by
  induction h generalizing cs with
  | ends ends =>
    obtain rfl := Except.ok.inj hx
    exact ⟨[], .nil, (exhausted_iff.1 ends).symm⟩
  | fails => cases hx
  | @goes _ _ _ c x _ read _ ih =>
    cases x with
    | error e => cases hx
    | ok rest =>
      obtain rfl := Except.ok.inj hx
      obtain ⟨parts, hparts, hflatten⟩ := ih rfl
      obtain ⟨part, hpart, hunread⟩ := spelled_of_next read
      exact ⟨part :: parts, .cons hpart hparts, by rw [List.flatten_cons, hflatten, hunread]⟩

end TraceReader

namespace Trace

variable {bytes : List UInt8} {cs : List Command}

/-- Writing what a trace is read as gives the bytes of the trace back, command by command and of the
same length, with no bit changed but the meaningless ones of straight moves, which are cleared. -/
theorem encode_decode (h : decode bytes = .ok cs) :
    ∃ parts bytes', parts.flatten = bytes ∧
      List.Forall₂ (fun c part => decode part = .ok [c]) cs parts ∧
      bytes' = (List.zipWith Command.meaningful cs parts).flatten ∧
      encode cs = .ok bytes' ∧ bytes'.length = bytes.length ∧
      (∀ c ∈ cs, c.check = .ok ()) ∧ decode bytes' = .ok cs := by
  obtain ⟨n, -, hloop⟩ := TraceReader.exists_loop (TraceReader.ofBytes bytes)
  obtain ⟨parts, hparts, hflatten⟩ := hloop.spelled h
  rw [TraceReader.unread_ofBytes] at hflatten
  have hvalid : ∀ c ∈ cs, c.check = .ok () := Command.Spelled.forall_check hparts
  have hbytes := Command.Spelled.flatMap_bytes hparts
  refine ⟨parts, cs.flatMap Command.bytes, hflatten,
    hparts.imp fun _ _ => Command.Spelled.decode_eq, hbytes, encode_eq_ok hvalid, ?_, hvalid,
    TraceReader.readAll_of_unread hvalid (TraceReader.unread_ofBytes _)⟩
  rw [← hflatten]
  exact Command.Spelled.length_flatMap_bytes hparts

/-- A straight move with all five of its meaningless bits set, then a bent move and fission, which
have none: of the six bytes the first two are written otherwise than they were read. -/
theorem encode_decode_marked :
    decode [0xd4, 0xfb, 0xec, 0x73, 0x75, 0xff] =
        .ok [.smove ⟨12, 0, 0⟩, .lmove ⟨0, -2, 0⟩ ⟨0, 0, 2⟩, .fission ⟨0, 0, 1⟩ 255] ∧
      encode [.smove ⟨12, 0, 0⟩, .lmove ⟨0, -2, 0⟩ ⟨0, 0, 2⟩, .fission ⟨0, 0, 1⟩ 255] =
        .ok [0x14, 0x1b, 0xec, 0x73, 0x75, 0xff] ∧
      decode [0x14, 0x1b, 0xec, 0x73, 0x75, 0xff] =
        .ok [.smove ⟨12, 0, 0⟩, .lmove ⟨0, -2, 0⟩ ⟨0, 0, 2⟩, .fission ⟨0, 0, 1⟩ 255] := by
  have hdecode : decode [0xd4, 0xfb, 0xec, 0x73, 0x75, 0xff] =
      .ok [.smove ⟨12, 0, 0⟩, .lmove ⟨0, -2, 0⟩ ⟨0, 0, 2⟩, .fission ⟨0, 0, 1⟩ 255] := by
    decide +kernel
  have hbytes : encode [.smove ⟨12, 0, 0⟩, .lmove ⟨0, -2, 0⟩ ⟨0, 0, 2⟩, .fission ⟨0, 0, 1⟩ 255] =
      .ok [0x14, 0x1b, 0xec, 0x73, 0x75, 0xff] := by
    decide
  obtain ⟨-, bytes', -, -, -, hencode, -, -, hagain⟩ := encode_decode hdecode
  obtain rfl : bytes' = [0x14, 0x1b, 0xec, 0x73, 0x75, 0xff] :=
    Except.ok.inj (hencode.symm.trans hbytes)
  exact ⟨hdecode, hbytes, hagain⟩

end Trace

end VoxelSwarm
