import VoxelSwarm.Proofs.Command.Cursor
import VoxelSwarm.Proofs.Geometry.Along

/-!
# Traces are read as they were written

`Trace.decode_encode_append` says that a trace of commands whose arguments belong to their classes
is read back as these commands, and that a cursor takes just their bytes when more bytes follow.

Each field of a command comes back from its code on its own (`ofSelector?_along`,
`ofFarBytes_farBytes`), the first byte tells the commands apart and says how many bytes follow
(`decode_bytes`), and so the cursor goes from one command to the next without a separator
(`next_of_unread`).
-/

namespace VoxelSwarm

/-! ## Fields -/

theorem Axis.ofSelector?_selector (a : Axis) (high : Nat) :
    Axis.ofSelector? (high * 4 + a.selector) = some a := by
  have hlow : a.selector < 4 := by cases a <;> decide
  have hmod : (high * 4 + a.selector) % 4 = a.selector := by omega
  rw [ofSelector?, hmod]
  cases a <;> rfl

namespace Displacement

variable {a : Axis} {v : Int} {bias : Nat}

theorem selector_along (hv : v ≠ 0) : (along a v).selector = a.selector := by
  rw [selector, axis?_along hv, Option.map_some, Option.getD_some]

theorem magnitude_along (hv : v ≠ 0) : (along a v).magnitude bias = raise bias v := by
  rw [magnitude, axis?_along hv, Option.map_some, Option.getD_some]
  cases a <;> rfl

theorem raise_le (h : v.natAbs ≤ bias) : raise bias v ≤ 2 * bias := by
  rw [raise]
  omega

theorem raise_sub (h : v.natAbs ≤ bias) : (raise bias v : Int) - bias = v := by
  rw [raise]
  omega

theorem selector_lt (hv : v ≠ 0) : (along a v).selector < 4 := by
  rw [selector_along hv]
  cases a <;> decide

theorem magnitude_le (hv : v ≠ 0) (h : v.natAbs ≤ bias) :
    (along a v).magnitude bias ≤ 2 * bias := by
  rw [magnitude_along hv]
  exact raise_le h

theorem ofSelector?_along (hv : v ≠ 0) (h : v.natAbs ≤ bias) (high : Nat) :
    ofSelector? (high * 4 + (along a v).selector) ((along a v).magnitude bias) bias =
      some (along a v) := by
  rw [ofSelector?, selector_along hv, Axis.ofSelector?_selector, magnitude_along hv,
    Option.map_some, raise_sub h]

theorem natAbs_le_of_far {d : Displacement} (h : d.Far) :
    d.dx.natAbs ≤ farDistance ∧ d.dy.natAbs ≤ farDistance ∧ d.dz.natAbs ≤ farDistance := by
  have := h.2
  simp only [clen] at this
  omega

theorem raise_toUInt8 (h : v.natAbs ≤ farDistance) :
    ((raise farDistance v).toUInt8.toNat : Int) - farDistance = v := by
  have hlt : raise farDistance v < UInt8.size :=
    Nat.lt_of_le_of_lt (raise_le h) (by decide)
  rw [UInt8.toNat_ofNat_of_lt' hlt, raise_sub h]

theorem ofFarBytes_farBytes {d : Displacement} (h : d.Far) :
    ∃ x y z, d.farBytes = [x, y, z] ∧ ofFarBytes x y z = d := by
  obtain ⟨hx, hy, hz⟩ := natAbs_le_of_far h
  refine ⟨_, _, _, rfl, ?_⟩
  rw [ofFarBytes, raise_toUInt8 hx, raise_toUInt8 hy, raise_toUInt8 hz]

end Displacement

/-! ## Commands -/

namespace Command

open Displacement

variable {nd : Displacement} {tail : Nat}

theorem toNat_nearByte (h : nd.Near) (ht : tail < 8) :
    (nearByte nd tail).toNat = nd.nearCode * 8 + tail := by
  have := nearCode_lt h
  exact UInt8.toNat_ofNat_of_lt' (by simp only [UInt8.size]; omega)

theorem not_reserved {byte : UInt8} (h : byte.toNat < 253) :
    byte ≠ 255 ∧ byte ≠ 254 ∧ byte ≠ 253 := by
  refine ⟨?_, ?_, ?_⟩ <;> rintro rfl <;> exact absurd h (by decide)

theorem nearByte_spec (tail : Nat) (h : nd.Near) (ht : tail < 8) :
    (nearByte nd tail ≠ 255 ∧ nearByte nd tail ≠ 254 ∧ nearByte nd tail ≠ 253) ∧
      (nearByte nd tail).toNat % 8 = tail ∧ ofNearCode ((nearByte nd tail).toNat / 8) = nd := by
  have hlt := nearCode_lt h
  have hbyte := toNat_nearByte h ht
  have hdiv : (nearByte nd tail).toNat / 8 = nd.nearCode := by omega
  refine ⟨not_reserved (by omega), by omega, ?_⟩
  rw [hdiv, ofNearCode_nearCode h]

theorem decodeMove_straight {a : Axis} {v : Int} (hv : v ≠ 0) (h : v.natAbs ≤ longDistance) :
    decodeMove ((along a v).selector * 16 + 4) ((along a v).magnitude longDistance) =
      some (smove (along a v)) := by
  have hmagnitude : (along a v).magnitude longDistance < 32 :=
    Nat.lt_of_le_of_lt (magnitude_le hv h) (by decide)
  have hflag : ((along a v).selector * 16 + 4) / 8 % 2 = 0 := by omega
  have hselector : ((along a v).selector * 16 + 4) / 16 = 0 * 4 + (along a v).selector := by omega
  rw [decodeMove, if_pos hflag, hselector, Nat.mod_eq_of_lt hmagnitude, ofSelector?_along hv h,
    Option.map_some]

theorem decodeMove_bent {a b : Axis} {v w : Int} (hv : v ≠ 0) (hw : w ≠ 0)
    (h : v.natAbs ≤ shortDistance) (h' : w.natAbs ≤ shortDistance) :
    decodeMove ((along b w).selector * 64 + (along a v).selector * 16 + 12)
        ((along b w).magnitude shortDistance * 16 + (along a v).magnitude shortDistance) =
      some (lmove (along a v) (along b w)) := by
  have hlow := selector_lt (a := a) hv
  have hmagnitude : (along a v).magnitude shortDistance < 16 :=
    Nat.lt_of_le_of_lt (magnitude_le hv h) (by decide)
  generalize hs : (along a v).selector = s at *
  generalize ht : (along b w).selector = t at *
  generalize hm : (along a v).magnitude shortDistance = m at *
  generalize hn : (along b w).magnitude shortDistance = n at *
  have hflag : (t * 64 + s * 16 + 12) / 8 % 2 ≠ 0 := by omega
  have hfirst : (t * 64 + s * 16 + 12) / 16 = t * 4 + s := by omega
  have hsecond : (t * 64 + s * 16 + 12) / 64 = 0 * 4 + t := by omega
  have hlegs : (n * 16 + m) % 16 = m ∧ (n * 16 + m) / 16 = n := by omega
  rw [decodeMove, if_neg hflag, hfirst, hsecond, hlegs.1, hlegs.2, ← hs, ← hm,
    ofSelector?_along hv h, ← ht, ← hn, ofSelector?_along hw h']
  rfl

theorem decode_moveBytes (first operand : Nat) (hfirst : first < 253) (htail : first % 8 = 4)
    (hoperand : operand < 256) :
    operandCount first.toUInt8 = 1 ∧
      decode first.toUInt8 [operand.toUInt8] = decodeMove first operand := by
  have hbyte : first.toUInt8.toNat = first :=
    UInt8.toNat_ofNat_of_lt' (Nat.lt_trans hfirst (by decide))
  have hnext : operand.toUInt8.toNat = operand := UInt8.toNat_ofNat_of_lt' hoperand
  have hfree := not_reserved (hbyte.symm ▸ hfirst)
  exact ⟨by simp [operandCount, hfree, hbyte, htail],
    by simp [decode, hfree, hbyte, hnext, htail]⟩

/-- A command comes back from its bytes, and the first of them says how many there are. -/
theorem decode_bytes {c : Command} (h : c.Valid) :
    ∃ byte operands, c.bytes = byte :: operands ∧ operandCount byte = operands.length ∧
      decode byte operands = some c := by
  cases c with
  | halt => exact ⟨_, _, rfl, rfl, rfl⟩
  | wait => exact ⟨_, _, rfl, rfl, rfl⟩
  | flip => exact ⟨_, _, rfl, rfl, rfl⟩
  | smove lld =>
    obtain ⟨hlinear, hlength⟩ : lld.LongLinear := h (.longLinear, lld) (by simp [arguments])
    obtain ⟨a, v, hv, rfl⟩ := linear_iff_along.1 hlinear
    rw [mlen_along] at hlength
    have hselector := selector_lt (a := a) hv
    have hmagnitude := magnitude_le (a := a) hv hlength
    rw [longDistance] at hmagnitude
    obtain ⟨hcount, hdecode⟩ := decode_moveBytes
      ((along a v).selector * 16 + 4) ((along a v).magnitude longDistance)
      (by omega) (by omega) (by rw [longDistance]; omega)
    exact ⟨_, _, rfl, hcount, hdecode.trans (decodeMove_straight hv hlength)⟩
  | lmove sld₁ sld₂ =>
    obtain ⟨hlinear, hlength⟩ : sld₁.ShortLinear := h (.shortLinear, sld₁) (by simp [arguments])
    obtain ⟨hlinear', hlength'⟩ : sld₂.ShortLinear := h (.shortLinear, sld₂) (by simp [arguments])
    obtain ⟨a, v, hv, rfl⟩ := linear_iff_along.1 hlinear
    obtain ⟨b, w, hw, rfl⟩ := linear_iff_along.1 hlinear'
    rw [mlen_along] at hlength hlength'
    have hselector := selector_lt (a := a) hv
    have hselector' := selector_lt (a := b) hw
    have hmagnitude := magnitude_le (a := a) hv hlength
    have hmagnitude' := magnitude_le (a := b) hw hlength'
    rw [shortDistance] at hmagnitude hmagnitude'
    obtain ⟨hcount, hdecode⟩ := decode_moveBytes
      ((along b w).selector * 64 + (along a v).selector * 16 + 12)
      ((along b w).magnitude shortDistance * 16 + (along a v).magnitude shortDistance)
      (by omega) (by omega) (by rw [shortDistance]; omega)
    exact ⟨_, _, rfl, hcount, hdecode.trans (decodeMove_bent hv hw hlength hlength')⟩
  | fusionP nd =>
    have hnd : nd.Near := h (.near, nd) (by simp [arguments])
    obtain ⟨hfree, htail, hnear⟩ := nearByte_spec 7 hnd (by decide)
    exact ⟨_, _, rfl, by simp [operandCount, hfree, htail], by simp [decode, hfree, htail, hnear]⟩
  | fusionS nd =>
    have hnd : nd.Near := h (.near, nd) (by simp [arguments])
    obtain ⟨hfree, htail, hnear⟩ := nearByte_spec 6 hnd (by decide)
    exact ⟨_, _, rfl, by simp [operandCount, hfree, htail], by simp [decode, hfree, htail, hnear]⟩
  | fission nd m =>
    have hnd : nd.Near := h (.near, nd) (by simp [arguments])
    obtain ⟨hfree, htail, hnear⟩ := nearByte_spec 5 hnd (by decide)
    exact ⟨_, _, rfl, by simp [operandCount, hfree, htail], by simp [decode, hfree, htail, hnear]⟩
  | fill nd =>
    have hnd : nd.Near := h (.near, nd) (by simp [arguments])
    obtain ⟨hfree, htail, hnear⟩ := nearByte_spec 3 hnd (by decide)
    exact ⟨_, _, rfl, by simp [operandCount, hfree, htail], by simp [decode, hfree, htail, hnear]⟩
  | void nd =>
    have hnd : nd.Near := h (.near, nd) (by simp [arguments])
    obtain ⟨hfree, htail, hnear⟩ := nearByte_spec 2 hnd (by decide)
    exact ⟨_, _, rfl, by simp [operandCount, hfree, htail], by simp [decode, hfree, htail, hnear]⟩
  | gfill nd fd =>
    have hnd : nd.Near := h (.near, nd) (by simp [arguments])
    obtain ⟨x, y, z, hbytes, hfar⟩ := ofFarBytes_farBytes (h (.far, fd) (by simp [arguments]))
    obtain ⟨hfree, htail, hnear⟩ := nearByte_spec 1 hnd (by decide)
    exact ⟨_, _, congrArg _ hbytes, by simp [operandCount, hfree, htail],
      by simp [decode, hfree, htail, hnear, hfar]⟩
  | gvoid nd fd =>
    have hnd : nd.Near := h (.near, nd) (by simp [arguments])
    obtain ⟨x, y, z, hbytes, hfar⟩ := ofFarBytes_farBytes (h (.far, fd) (by simp [arguments]))
    obtain ⟨hfree, htail, hnear⟩ := nearByte_spec 0 hnd (by decide)
    exact ⟨_, _, congrArg _ hbytes, by simp [operandCount, hfree, htail],
      by simp [decode, hfree, htail, hnear, hfar]⟩

theorem encode_eq_ok {c : Command} (h : c.check = .ok ()) : c.encode = .ok c.bytes := by
  rw [encode, h]
  rfl

end Command

/-! ## Cursors -/

namespace TraceReader

variable {r : TraceReader} {c : Command} {cs : List Command} {rest : List UInt8}

def nextMany : Nat → TraceReader → Except TraceError (List Command) × TraceReader
  | 0, r => (.ok [], r)
  | n + 1, r =>
    match r.next with
    | (.error e, r) => (.error e, r)
    | (.ok c, r) =>
      match nextMany n r with
      | (.error e, r) => (.error e, r)
      | (.ok cs, r) => (.ok (c :: cs), r)

/-- The bytes of a command are consumed, whatever follows them. -/
theorem next_of_unread (h : c.check = .ok ()) (hunread : r.unread = c.bytes ++ rest) :
    r.next = (.ok c, r.forward c.bytes.length) := by
  obtain ⟨byte, operands, hbytes, hcount, hdecode⟩ :=
    Command.decode_bytes (Command.check_eq_ok_iff.1 h)
  rw [hbytes, List.cons_append] at hunread
  have hoperands : operands.length ≤ (operands ++ rest).length := by
    rw [List.length_append]
    exact Nat.le_add_right ..
  rw [next_eq, hunread]
  simp only [hcount, if_pos hoperands, List.take_left, decodeAt, hdecode, h]
  rw [hbytes, List.length_cons, Nat.add_comm]

theorem nextMany_of_unread (h : ∀ c ∈ cs, c.check = .ok ())
    (hunread : r.unread = cs.flatMap Command.bytes ++ rest) :
    r.nextMany cs.length = (.ok cs, r.forward (cs.flatMap Command.bytes).length) := by
  induction cs generalizing r with
  | nil => rfl
  | cons c cs ih =>
    obtain ⟨hc, hcs⟩ := List.forall_mem_cons.1 h
    rw [List.flatMap_cons, List.append_assoc] at hunread
    have hnext : (r.forward c.bytes.length).unread = cs.flatMap Command.bytes ++ rest := by
      rw [unread_forward, hunread, List.drop_left]
    simp only [List.length_cons, nextMany, next_of_unread hc hunread, ih hcs hnext]
    simp only [forward, List.flatMap_cons, List.length_append, Nat.add_assoc]

theorem readAll_of_unread (h : ∀ c ∈ cs, c.check = .ok ())
    (hunread : r.unread = cs.flatMap Command.bytes) : r.readAll = .ok cs := by
  induction cs generalizing r with
  | nil => exact readAll_of_exhausted (exhausted_iff.2 hunread)
  | cons c cs ih =>
    obtain ⟨hc, hcs⟩ := List.forall_mem_cons.1 h
    rw [List.flatMap_cons] at hunread
    have hmore : r.exhausted = false := by
      obtain ⟨byte, operands, hbytes, -⟩ := Command.decode_bytes (Command.check_eq_ok_iff.1 hc)
      rw [Bool.eq_false_iff, ne_eq, exhausted_iff, hunread, hbytes]
      exact List.cons_ne_nil _ _
    have hnext : (r.forward c.bytes.length).unread = cs.flatMap Command.bytes := by
      rw [unread_forward, hunread, List.drop_left]
    rw [readAll_of_next hmore (next_of_unread hc hunread), ih hcs hnext]
    rfl

end TraceReader

/-! ## Traces -/

namespace Trace

variable {cs : List Command}

theorem encode_eq_ok (h : ∀ c ∈ cs, c.check = .ok ()) :
    encode cs = .ok (cs.flatMap Command.bytes) := by
  have hall : cs.mapM Command.encode = .ok (cs.map Command.bytes) := by
    induction cs with
    | nil => rfl
    | cons c cs ih =>
      obtain ⟨hc, hcs⟩ := List.forall_mem_cons.1 h
      rw [List.mapM_cons, Command.encode_eq_ok hc, ih hcs]
      rfl
  rw [encode, hall, List.flatMap]
  rfl

/-- Commands whose arguments belong to their classes are written, and read back as they were; when
more bytes follow theirs, a cursor that reads as many commands stops where those begin. -/
theorem decode_encode_append (h : ∀ c ∈ cs, c.check = .ok ()) :
    ∃ bytes, encode cs = .ok bytes ∧ decode bytes = .ok cs ∧
      ∀ rest, (TraceReader.ofBytes (bytes ++ rest)).nextMany cs.length =
        (.ok cs, ⟨(bytes ++ rest).toArray, bytes.length⟩) := by
  refine ⟨_, encode_eq_ok h, TraceReader.readAll_of_unread h rfl, fun rest => ?_⟩
  rw [TraceReader.nextMany_of_unread h (TraceReader.unread_ofBytes _), TraceReader.forward,
    TraceReader.ofBytes, Nat.zero_add]

theorem decode_encode_mixed :
    (∀ c ∈ [Command.lmove ⟨0, -5, 0⟩ ⟨0, 0, 5⟩, .gfill ⟨1, 1, 0⟩ ⟨-30, 0, 30⟩, .flip,
        .smove ⟨-15, 0, 0⟩, .fission ⟨0, 0, 1⟩ 255], c.check = .ok ()) ∧
      ∃ bytes, encode [Command.lmove ⟨0, -5, 0⟩ ⟨0, 0, 5⟩, .gfill ⟨1, 1, 0⟩ ⟨-30, 0, 30⟩, .flip,
          .smove ⟨-15, 0, 0⟩, .fission ⟨0, 0, 1⟩ 255] = .ok bytes ∧
        decode bytes = .ok [Command.lmove ⟨0, -5, 0⟩ ⟨0, 0, 5⟩, .gfill ⟨1, 1, 0⟩ ⟨-30, 0, 30⟩,
          .flip, .smove ⟨-15, 0, 0⟩, .fission ⟨0, 0, 1⟩ 255] ∧
        ((TraceReader.ofBytes (bytes ++ [20])).nextMany 5).2.offset = bytes.length := by
  have hvalid : ∀ c ∈ [Command.lmove ⟨0, -5, 0⟩ ⟨0, 0, 5⟩, .gfill ⟨1, 1, 0⟩ ⟨-30, 0, 30⟩, .flip,
      .smove ⟨-15, 0, 0⟩, .fission ⟨0, 0, 1⟩ 255], c.check = .ok () := by
    simp only [List.forall_mem_cons]
    exact ⟨rfl, rfl, rfl, rfl, rfl, fun _ h => nomatch h⟩
  obtain ⟨bytes, hencode, hdecode, hmany⟩ := decode_encode_append hvalid
  exact ⟨hvalid, bytes, hencode, hdecode, congrArg (·.2.offset) (hmany [20])⟩

end Trace

end VoxelSwarm
