import VoxelSwarm.Proofs.Command.Layout

/-!
# What a read gives

`width` tells from its first byte how many bytes a command takes. Either they are all before the
cursor (`Fronts`) or too few are left (`Short`), and each of these fixes the read (`next_of_fronts`,
`next_of_short`). Bytes that are there stand for a command unless they are a move that leaves an
axis open (`decode_eq_none_iff`), and then its arguments decide. So the four things that a read can
give exclude each other and have exact conditions (`next_exact`), of which none but the offset in an
error depends on what is before the cursor.

`Loop` is the reading of a whole trace without a bound on the number of reads; each of them consumes
a byte, so there are no more of them than bytes (`exists_loop`).
-/

namespace VoxelSwarm

/-! ## Reads -/

namespace TraceReader

open Command

variable {bytes : List UInt8} {r r' : TraceReader} {byte : UInt8} {operands : List UInt8}
  {c : Command} {cause : CommandError} {n : Nat}

/-- A cursor that reads lead to from the start of a trace, where it can be put again. -/
inductive Reached (bytes : List UInt8) : TraceReader → Prop
  | start : Reached bytes (ofBytes bytes)
  | next {r : TraceReader} (before : Reached bytes r) : Reached bytes r.next.2
  | rewind {r : TraceReader} (before : Reached bytes r) : Reached bytes r.rewind

/-- No byte is left, or fewer than the command takes that the first of them begins. -/
def Short (r : TraceReader) : Prop := ∀ byte ∈ r.unread.head?, r.unread.length < width byte

/-- The bytes of one command come next, its first one and its operands. -/
structure Fronts (r : TraceReader) (byte : UInt8) (operands : List UInt8) : Prop where
  width : operands.length + 1 = Command.width byte
  unread : byte :: operands <+: r.unread

theorem Reached.before (h : Reached bytes r) : Before (ofBytes bytes) r := by
  induction h with
  | start => exact .refl _
  | next _ ih => exact ih.trans (before_next _)
  | rewind _ ih =>
    obtain ⟨k, -, rfl⟩ := ih
    exact .refl _

theorem Reached.bounds (h : Reached bytes r) :
    r.bytes = bytes.toArray ∧ r.offset + r.remaining = bytes.length := by
  obtain ⟨k, hk, rfl⟩ := h.before
  have hoffset : ((ofBytes bytes).forward k).offset = k := Nat.zero_add k
  rw [remaining_eq, unread_ofBytes] at hk
  rw [hoffset, remaining_eq, unread_forward, unread_ofBytes, List.length_drop]
  exact ⟨rfl, by omega⟩

theorem Fronts.length (h : r.Fronts byte operands) : operands.length = operandCount byte := by
  have := h.width
  rw [width_eq] at this
  omega

/-- The first command is told from the bytes alone. -/
theorem Fronts.unique {byte' : UInt8} {operands' : List UInt8} (h : r.Fronts byte operands)
    (h' : r.Fronts byte' operands') : byte = byte' ∧ operands = operands' := by
  obtain ⟨rest, hrest⟩ := h.unread
  obtain ⟨rest', hrest'⟩ := h'.unread
  obtain ⟨rfl, htail⟩ := List.cons.inj (hrest.trans hrest'.symm)
  exact ⟨rfl, (List.append_inj htail (h.length.trans h'.length.symm)).1⟩

theorem Fronts.not_short (h : r.Fronts byte operands) : ¬r.Short := by
  obtain ⟨rest, hrest⟩ := h.unread
  intro hshort
  have hlt := hshort byte (by rw [← hrest]; rfl)
  rw [← hrest, List.length_append, List.length_cons, h.width] at hlt
  omega

theorem short_or_fronts (r : TraceReader) : r.Short ∨ ∃ byte operands, r.Fronts byte operands := by
  cases hunread : r.unread with
  | nil =>
    refine .inl fun byte hbyte => ?_
    rw [hunread] at hbyte
    cases hbyte
  | cons byte rest =>
    rcases Nat.lt_or_ge rest.length (operandCount byte) with hlt | hge
    · refine .inl fun first hfirst => ?_
      rw [hunread] at hfirst
      obtain rfl : byte = first := Option.some.inj hfirst
      rw [hunread, width_eq, List.length_cons]
      omega
    · refine .inr ⟨byte, rest.take (operandCount byte), ?_, ?_⟩
      · rw [List.length_take_of_le hge, width_eq]
      · rw [hunread, List.cons_prefix_cons]
        exact ⟨rfl, List.take_prefix ..⟩

theorem next_of_fronts (h : r.Fronts byte operands) :
    r.next = (decodeAt r.offset byte operands, r.forward (Command.width byte)) := by
  obtain ⟨rest, hrest⟩ := h.unread
  have hle : operandCount byte ≤ (operands ++ rest).length := by
    rw [List.length_append, h.length]
    exact Nat.le_add_right ..
  rw [next_eq, ← hrest, List.cons_append]
  dsimp only
  rw [if_pos hle, ← h.length, List.take_left, width_eq, ← h.length, Nat.add_comm]

theorem next_of_short (h : r.Short) :
    r.next = (.error (.endOfTrace (r.offset + r.remaining)), r.forward r.remaining) := by
  rw [next_eq, remaining_eq]
  cases hunread : r.unread with
  | nil => rfl
  | cons byte rest =>
    have hlt := h byte (by rw [hunread]; rfl)
    rw [hunread, width_eq, List.length_cons] at hlt
    simp only [if_neg (show ¬operandCount byte ≤ rest.length by omega), List.length_cons,
      Nat.add_comm 1]

/-! ## What bytes stand for -/

theorem decodeAt_eq_ok_iff :
    decodeAt n byte operands = .ok c ↔ decode byte operands = some c ∧ c.Valid := by
  rw [decodeAt]
  cases decode byte operands with
  | none => simp
  | some d =>
    dsimp only
    rcases check_cases d with hcheck | ⟨cause, hcheck⟩
    · have hvalid := check_eq_ok_iff.1 hcheck
      rw [hcheck]
      simp only [Except.ok.injEq, Option.some.injEq]
      exact ⟨fun h => ⟨h, h ▸ hvalid⟩, fun h => h.1⟩
    · have hvalid : ¬d.Valid := fun h => by rw [check_eq_ok_iff.2 h] at hcheck; cases hcheck
      rw [hcheck]
      simp only [reduceCtorEq, Option.some.injEq, false_iff]
      rintro ⟨rfl, h⟩
      exact hvalid h

theorem decodeAt_ne_endOfTrace {k : Nat} : decodeAt n byte operands ≠ .error (.endOfTrace k) := by
  rw [decodeAt]
  split
  · simp
  · split <;> simp

theorem decodeAt_eq_invalidAxis_iff {k : Nat} {first : UInt8} :
    decodeAt n byte operands = .error (.invalidAxis k first) ↔
      k = n ∧ first = byte ∧ decode byte operands = none := by
  rw [decodeAt]
  cases decode byte operands with
  | none => simp [eq_comm]
  | some d =>
    dsimp only
    split <;> simp

theorem decodeAt_eq_illFormed_iff {k : Nat} :
    decodeAt n byte operands = .error (.illFormed k cause) ↔
      k = n ∧ ∃ c, decode byte operands = some c ∧ c.check = .error cause := by
  rw [decodeAt]
  cases decode byte operands with
  | none => simp
  | some d =>
    dsimp only
    rcases check_cases d with hcheck | ⟨cause', hcheck⟩
    · rw [hcheck]
      simp [hcheck]
    · rw [hcheck]
      simp [hcheck, eq_comm]

/-! ## Whole traces -/

/-- The reading of a whole trace without a bound: a command is read as long as a byte is left, until
a read fails. The number is that of the reads. -/
inductive Loop : Nat → TraceReader → Except TraceError (List Command) → Prop
  | ends {r : TraceReader} (ends : r.exhausted = true) : Loop 0 r (.ok [])
  | fails {r r' : TraceReader} {e : TraceError} (goes : r.exhausted = false)
    (read : r.next = (.error e, r')) : Loop 1 r (.error e)
  | goes {n : Nat} {r r' : TraceReader} {c : Command} {x : Except TraceError (List Command)}
    (goes : r.exhausted = false) (read : r.next = (.ok c, r')) (rest : Loop n r' x) :
    Loop (n + 1) r (x.map (c :: ·))

/-- Every read consumes a byte, so there are no more reads than bytes. -/
theorem exists_loop (r : TraceReader) : ∃ n ≤ r.remaining, Loop n r r.readAll := by
  fun_induction readAll r with
  | case1 r h => exact ⟨0, Nat.zero_le _, .ends h⟩
  | case2 r hmore hlt e he =>
    exact ⟨1, by omega, .fails (by simpa using hmore) (Prod.ext he rfl)⟩
  | case3 r hmore hlt c hc ih =>
    obtain ⟨n, hn, hloop⟩ := ih
    exact ⟨n + 1, by omega, .goes (by simpa using hmore) (Prod.ext hc rfl) hloop⟩

/-! ## The four outcomes -/

theorem next_eq_iff {x : Except TraceError Command} (hx : ∀ n, x ≠ .error (.endOfTrace n)) :
    r.next.1 = x ↔
      ∃ byte operands, r.Fronts byte operands ∧ decodeAt r.offset byte operands = x := by
  rcases r.short_or_fronts with hshort | ⟨byte, operands, hfronts⟩
  · rw [next_of_short hshort]
    refine ⟨fun h => absurd h.symm (hx _), ?_⟩
    rintro ⟨byte, operands, hfronts, -⟩
    exact absurd hshort hfronts.not_short
  · rw [next_of_fronts hfronts]
    refine ⟨fun h => ⟨byte, operands, hfronts, h⟩, ?_⟩
    rintro ⟨byte', operands', hfronts', h⟩
    obtain ⟨rfl, rfl⟩ := hfronts.unique hfronts'
    exact h

theorem next_eq_endOfTrace_iff :
    r.next.1 = .error (.endOfTrace n) ↔ r.Short ∧ n = r.offset + r.remaining := by
  rcases r.short_or_fronts with hshort | ⟨byte, operands, hfronts⟩
  · rw [next_of_short hshort]
    simp [hshort, eq_comm]
  · rw [next_of_fronts hfronts]
    exact ⟨fun h => absurd h decodeAt_ne_endOfTrace, fun h => absurd h.1 hfronts.not_short⟩

theorem next_eq_ok_iff : r.next.1 = .ok c ↔
    ∃ byte operands, r.Fronts byte operands ∧ decode byte operands = some c ∧ c.Valid := by
  rw [next_eq_iff fun n => by simp]
  simp only [decodeAt_eq_ok_iff]

theorem next_eq_invalidAxis_iff : r.next.1 = .error (.invalidAxis n byte) ↔
    n = r.offset ∧ ∃ operands, r.Fronts byte operands ∧ OpenAxis byte := by
  rw [next_eq_iff fun n => by simp]
  simp only [decodeAt_eq_invalidAxis_iff]
  constructor
  · rintro ⟨first, operands, hfronts, hn, rfl, hnone⟩
    exact ⟨hn, operands, hfronts, (decode_eq_none_iff hfronts.length).1 hnone⟩
  · rintro ⟨hn, operands, hfronts, hopen⟩
    exact ⟨byte, operands, hfronts, hn, rfl, (decode_eq_none_iff hfronts.length).2 hopen⟩

theorem next_eq_illFormed_iff : r.next.1 = .error (.illFormed n cause) ↔
    n = r.offset ∧ ∃ byte operands c, r.Fronts byte operands ∧ ¬OpenAxis byte ∧
      decode byte operands = some c ∧ c.Refuses cause := by
  rw [next_eq_iff fun n => by simp]
  simp only [decodeAt_eq_illFormed_iff, check_eq_error_iff]
  constructor
  · rintro ⟨byte, operands, hfronts, hn, c, hdecode, hrefuses⟩
    have hopen : ¬OpenAxis byte := fun hopen => by
      rw [(decode_eq_none_iff hfronts.length).2 hopen] at hdecode
      cases hdecode
    exact ⟨hn, byte, operands, c, hfronts, hopen, hdecode, hrefuses⟩
  · rintro ⟨hn, byte, operands, c, hfronts, -, hdecode, hrefuses⟩
    exact ⟨byte, operands, hfronts, hn, c, hdecode, hrefuses⟩

theorem next_of_ok (h : r.next.1 = .ok c) :
    ∃ part, c.encode = .ok part ∧ (part.length = 1 ∨ part.length = 2 ∨ part.length = 4) ∧
      r.next.2 = r.forward part.length ∧ part.length ≤ r.remaining := by
  obtain ⟨byte, operands, hfronts, hdecode, hvalid⟩ := next_eq_ok_iff.1 h
  have hlength : c.bytes.length = Command.width byte := by
    rw [bytes_of_decode hfronts.length hdecode hvalid, length_meaningful, List.length_cons,
      hfronts.width]
  refine ⟨c.bytes, encode_eq_ok (check_eq_ok_iff.2 hvalid), ?_, ?_, ?_⟩
  · rw [hlength]
    exact width_cases byte
  · rw [next_of_fronts hfronts, hlength]
  · rw [hlength, ← hfronts.width, remaining_eq]
    exact hfronts.unread.length_le

theorem offset_lt_next (hmore : r.exhausted = false) : r.offset < r.next.2.offset := by
  have hlt := remaining_next_lt r hmore
  obtain ⟨k, -, hnext⟩ := before_next r
  rw [hnext, remaining_eq, remaining_eq, unread_forward, List.length_drop] at hlt
  rw [hnext, offset_forward]
  omega

/-- What is before the cursor matters for offsets only. -/
theorem Reached.next_eq (h : Reached bytes r) :
    r.next.1 = (ofBytes (bytes.drop r.offset)).next.1.mapError (.shift r.offset) ∧
      r.next.2 = r.forward (ofBytes (bytes.drop r.offset)).next.2.offset := by
  obtain ⟨hresult, hrest⟩ := h.before.ahead.next
  obtain ⟨k, -, hnext⟩ := before_next r
  have hoffset := hrest.offset
  rw [hnext, offset_forward] at hoffset
  exact ⟨hresult, by rw [hnext, Nat.add_left_cancel hoffset]⟩

/-- At a cursor in a trace, a read gives a command just if the bytes of one come next and stand for
it, and takes as many bytes as it is written with; it comes to the end of the trace just if too few
bytes are left, and takes them; it refuses a move with an open axis and, of the other bytes of a
command, those with an argument outside its class. Nothing before the cursor matters but for the
offset in an error. While a byte is left the read takes one, so that there are no more reads in a
whole trace than bytes. -/
theorem next_exact (h : Reached bytes r) :
    (∀ c, r.next.1 = .ok c ↔
      ∃ byte operands, r.Fronts byte operands ∧ decode byte operands = some c ∧ c.Valid) ∧
    (∀ c, r.next.1 = .ok c → ∃ part, c.encode = .ok part ∧
      (part.length = 1 ∨ part.length = 2 ∨ part.length = 4) ∧
      r.next.2 = r.forward part.length ∧ r.next.2.offset ≤ bytes.length) ∧
    (∀ n, r.next.1 = .error (.endOfTrace n) ↔ r.Short ∧ n = bytes.length) ∧
    (r.Short → r.next.2 = ⟨bytes.toArray, bytes.length⟩) ∧
    (∀ n byte, r.next.1 = .error (.invalidAxis n byte) ↔
      n = r.offset ∧ ∃ operands, r.Fronts byte operands ∧ OpenAxis byte) ∧
    (∀ n cause, r.next.1 = .error (.illFormed n cause) ↔
      n = r.offset ∧ ∃ byte operands c, r.Fronts byte operands ∧ ¬OpenAxis byte ∧
        decode byte operands = some c ∧ c.Refuses cause) ∧
    (r.next.1 = (ofBytes (bytes.drop r.offset)).next.1.mapError (.shift r.offset) ∧
      r.next.2 = r.forward (ofBytes (bytes.drop r.offset)).next.2.offset) ∧
    (r.exhausted = false → r.offset < r.next.2.offset) ∧
    ∃ n ≤ bytes.length, Loop n (ofBytes bytes) (Trace.decode bytes) := by
  obtain ⟨hbytes, hend⟩ := h.bounds
  refine ⟨fun c => next_eq_ok_iff, fun c hc => ?_, fun n => ?_, fun hshort => ?_,
    fun n byte => next_eq_invalidAxis_iff, fun n cause => next_eq_illFormed_iff, h.next_eq,
    offset_lt_next, exists_loop (ofBytes bytes)⟩
  · obtain ⟨part, hpart, hlength, hnext, hle⟩ := next_of_ok hc
    refine ⟨part, hpart, hlength, hnext, ?_⟩
    rw [hnext, offset_forward]
    omega
  · rw [next_eq_endOfTrace_iff, hend]
  · rw [next_of_short hshort, forward, hend, hbytes]

/-- A wait, then a straight move without an axis, then the first half of another move: the second
read refuses the move, where it stands, and the third comes to the end. -/
theorem next_exact_openAxis :
    Reached [254, 4, 7, 20] (ofBytes [254, 4, 7, 20]).next.2 ∧
      (ofBytes [254, 4, 7, 20]).next.2.next.1 = .error (.invalidAxis 1 4) ∧
      (ofBytes [254, 4, 7, 20]).next.2.next.2.next =
        (.error (.endOfTrace 4), ⟨#[254, 4, 7, 20], 4⟩) := by
  have hsecond : Reached [254, 4, 7, 20] (ofBytes [254, 4, 7, 20]).next.2 := .next .start
  obtain ⟨-, -, -, -, hopen, -⟩ := next_exact hsecond
  obtain ⟨-, -, hends, hcursor, -⟩ := next_exact hsecond.next
  have hfronts : (ofBytes [254, 4, 7, 20]).next.2.Fronts 4 [7] := ⟨rfl, [20], rfl⟩
  have hshort : (ofBytes [254, 4, 7, 20]).next.2.next.2.Short := by
    intro byte hbyte
    obtain rfl : 20 = byte := Option.some.inj hbyte
    decide
  exact ⟨hsecond, (hopen 1 4).2 ⟨rfl, [7], hfronts, by decide⟩,
    Prod.ext ((hends 4).2 ⟨hshort, rfl⟩) (hcursor hshort)⟩

end TraceReader

end VoxelSwarm
