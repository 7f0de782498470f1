import VoxelSwarm.Command.Trace

/-!
# What a cursor sees

A cursor reads on from the bytes that it has not consumed and from nothing else (`next_eq`): which
command comes next, and how many bytes it takes, is the same wherever these bytes stand in a trace.
Only errors name offsets, so a cursor in what is left of a trace reads what the cursor in the whole
trace reads, up to that (`Ahead.next`).
-/

namespace VoxelSwarm

/-- The error with its offset counted from `n` bytes earlier. -/
def TraceError.shift (n : Nat) : TraceError → TraceError
  | .endOfTrace offset => .endOfTrace (n + offset)
  | .invalidAxis offset byte => .invalidAxis (n + offset) byte
  | .illFormed offset cause => .illFormed (n + offset) cause

namespace TraceReader

variable {r r' : TraceReader} {n : Nat}

def unread (r : TraceReader) : List UInt8 := r.bytes.toList.drop r.offset

def forward (r : TraceReader) (n : Nat) : TraceReader := { r with offset := r.offset + n }

@[simp] theorem offset_forward (r : TraceReader) (n : Nat) :
    (r.forward n).offset = r.offset + n := rfl

@[simp] theorem unread_forward (r : TraceReader) (n : Nat) :
    (r.forward n).unread = r.unread.drop n := by
  simp [unread, forward]

@[simp] theorem unread_ofBytes (bytes : List UInt8) : (ofBytes bytes).unread = bytes := rfl

theorem remaining_eq (r : TraceReader) : r.remaining = r.unread.length := by
  simp [remaining, unread]

theorem exhausted_iff : r.exhausted = true ↔ r.unread = [] := by
  simp [exhausted, unread]

/-- The first byte says how many follow it; when there are fewer, all are consumed. -/
theorem next_eq (r : TraceReader) :
    r.next =
      match r.unread with
      | [] => (.error (.endOfTrace r.offset), r)
      | byte :: rest =>
        if Command.operandCount byte ≤ rest.length then
          (decodeAt r.offset byte (rest.take (Command.operandCount byte)),
            r.forward (1 + Command.operandCount byte))
        else
          (.error (.endOfTrace (r.offset + (1 + rest.length))), r.forward (1 + rest.length)) := by
  have hfirst : r.bytes[r.offset]? = r.unread.head? := by
    rw [unread, List.head?_drop, Array.getElem?_toList]
  rw [next, hfirst]
  cases hunread : r.unread with
  | nil => rfl
  | cons byte rest =>
    have hrest : r.bytes.toList.drop (r.offset + 1) = rest := by
      rw [← List.drop_drop, ← unread, hunread]
      rfl
    have hsize : r.bytes.size = r.offset + (1 + rest.length) := by
      have hlength := congrArg List.length hunread
      rw [unread, List.length_drop, Array.length_toList, List.length_cons] at hlength
      omega
    simp only [List.head?_cons, hsize]
    rw [Array.toList_extract, List.extract_eq_take_drop, hrest, Nat.add_sub_cancel_left]
    split
    · next hstop => rw [if_pos (by omega), forward, Nat.add_assoc]
    · next hstop => rw [if_neg (by omega), forward]

theorem remaining_next_of_ok {c : Command} (h : r.next = (.ok c, r')) :
    r'.remaining < r.remaining := by
  rw [next_eq] at h
  rw [remaining_eq, remaining_eq]
  split at h
  · cases h
  · next byte rest hunread =>
    split at h
    · obtain ⟨-, rfl⟩ := Prod.mk.inj h
      rw [unread_forward, hunread, List.length_drop, List.length_cons]
      omega
    · cases h

theorem readAll_of_exhausted (h : r.exhausted = true) : r.readAll = .ok [] := by
  rw [readAll, dif_pos h]

theorem readAll_of_next {c : Command} (hmore : r.exhausted = false) (h : r.next = (.ok c, r')) :
    r.readAll = r'.readAll.map (c :: ·) := by
  rw [readAll, dif_neg (by simp [hmore])]
  simp only [h]

/-- The second cursor has consumed more of the same trace. -/
def Before (r r' : TraceReader) : Prop := ∃ k ≤ r.remaining, r' = r.forward k

theorem Before.refl (r : TraceReader) : Before r r := ⟨0, Nat.zero_le _, rfl⟩

theorem Before.trans {r'' : TraceReader} (h : Before r r') (h' : Before r' r'') :
    Before r r'' := by
  obtain ⟨k, hk, rfl⟩ := h
  obtain ⟨j, hj, rfl⟩ := h'
  rw [remaining_eq, unread_forward, List.length_drop, ← remaining_eq] at hj
  exact ⟨k + j, by omega, by rw [forward, forward, forward, Nat.add_assoc]⟩

theorem before_next (r : TraceReader) : Before r r.next.2 := by
  rw [Before, remaining_eq, next_eq]
  cases r.unread with
  | nil => exact ⟨0, Nat.zero_le _, rfl⟩
  | cons byte rest =>
    rw [List.length_cons]
    dsimp only
    split
    · exact ⟨_, by omega, rfl⟩
    · exact ⟨_, by omega, rfl⟩

theorem Before.unread_eq {bytes : List UInt8} (h : Before (ofBytes bytes) r) :
    r.unread = bytes.drop r.offset := by
  obtain ⟨k, -, rfl⟩ := h
  rw [unread_forward, unread_ofBytes, offset_forward, ofBytes, Nat.zero_add]

theorem Before.offset_le {bytes : List UInt8} (h : Before (ofBytes bytes) r) :
    r.offset ≤ bytes.length := by
  obtain ⟨k, hk, rfl⟩ := h
  rw [remaining_eq, unread_ofBytes] at hk
  rwa [offset_forward, ofBytes, Nat.zero_add]

/-! ## The same bytes at another place -/

theorem decodeAt_shift (n offset : Nat) (byte : UInt8) (operands : List UInt8) :
    decodeAt (n + offset) byte operands =
      (decodeAt offset byte operands).mapError (TraceError.shift n) := by
  unfold decodeAt
  split
  · rfl
  · split <;> rfl

/-- Both cursors have the same bytes before them, the first one after `n` more. -/
structure Ahead (n : Nat) (r r' : TraceReader) : Prop where
  unread : r.unread = r'.unread
  offset : r.offset = n + r'.offset

theorem Ahead.refl (r : TraceReader) : Ahead 0 r r := ⟨rfl, (Nat.zero_add _).symm⟩

theorem Ahead.remaining (h : Ahead n r r') : r.remaining = r'.remaining := by
  rw [remaining_eq, remaining_eq, h.unread]

theorem Ahead.forward (h : Ahead n r r') (k : Nat) : Ahead n (r.forward k) (r'.forward k) :=
  ⟨by rw [unread_forward, unread_forward, h.unread],
    by rw [offset_forward, offset_forward, h.offset, Nat.add_assoc]⟩

theorem Before.ahead {bytes : List UInt8} (h : Before (ofBytes bytes) r) :
    Ahead r.offset r (ofBytes (bytes.drop r.offset)) :=
  ⟨h.unread_eq.trans (unread_ofBytes _).symm, rfl⟩

theorem Ahead.next (h : Ahead n r r') :
    r.next.1 = r'.next.1.mapError (TraceError.shift n) ∧ Ahead n r.next.2 r'.next.2 := by
  rw [next_eq, next_eq, h.unread, h.offset]
  cases r'.unread with
  | nil => exact ⟨rfl, h⟩
  | cons byte rest =>
    by_cases hcount : Command.operandCount byte ≤ rest.length
    · simp only [if_pos hcount]
      exact ⟨decodeAt_shift .., h.forward _⟩
    · simp only [if_neg hcount, Nat.add_assoc]
      exact ⟨rfl, h.forward _⟩

end TraceReader

end VoxelSwarm
