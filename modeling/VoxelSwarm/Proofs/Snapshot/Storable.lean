import VoxelSwarm.Proofs.Json.Yields
import VoxelSwarm.Proofs.Snapshot.Runs

/-!
# What snapshots can hold

Reading checks nothing but that numbers fit their words and that matrices are ones that the format
admits, and these make a snapshot storable. So every snapshot that is read from any text is
(`storable_of_decode`), and a snapshot is given back by its own text if and only if it is
(`decode_padded_iff`): no bot, seed or flag, and no state that makes no sense, is in the way.
-/

namespace VoxelSwarm

open Json Json.Decoder

/-! ## Matrices -/

namespace Matrix

theorem resolution_of_ofParts {m : Matrix} {r n : Nat} {data : Array UInt8}
    (h : ofParts r n data = .ok m) : m.resolution ≤ maxResolution := by
  obtain ⟨⟨hle, -⟩, -, -, rfl⟩ := ofParts_eq_ok_iff.1 h
  exact hle

theorem decoder_yields : Matrix.decoder.Yields Storable := by
  intro r m h
  obtain ⟨packed, -, hrest⟩ := bind_eq_ok h
  split at hrest
  · next hparts =>
    obtain rfl := Except.ok.inj hrest
    exact ⟨consistent_of_ofParts hparts, resolution_of_ofParts hparts⟩
  · cases hrest

end Matrix

/-! ## Bots -/

theorem Position.storable_origin : Position.origin.Storable := by
  constructor <;> decide

theorem Position.decoder_yields : Position.decoder.Yields Storable := by
  have hword : integer32.Yields fun n => -(2 : Int) ^ 31 ≤ n ∧ n < 2 ^ 31 := signed_yields 32 "i32"
  refine record_yields storable_origin ?_
  simp only [List.forall_mem_cons, List.not_mem_nil, false_implies, implies_true, and_true]
  exact ⟨.of_yields hword fun _ _ hp hx => ⟨hx, hp.y, hp.z⟩,
    .of_yields hword fun _ _ hp hy => ⟨hp.x, hy, hp.z⟩,
    .of_yields hword fun _ _ hp hz => ⟨hp.x, hp.y, hz⟩⟩

theorem Bot.decoder_yields : Bot.decoder.Yields fun b => b.position.Storable := by
  refine record_yields Position.storable_origin ?_
  simp only [List.forall_mem_cons, List.not_mem_nil, false_implies, implies_true, and_true]
  exact ⟨.of_decoder fun _ _ hb => hb,
    .of_yields Position.decoder_yields fun _ _ _ hp => hp,
    .of_decoder fun _ _ hb => hb,
    .of_decoder fun _ _ hb => hb⟩

/-! ## States and snapshots -/

theorem State.storable_blank : State.blank.Storable :=
  ⟨⟨⟨.empty 0, by decide⟩, ⟨.empty 0, by decide⟩, List.forall_mem_nil _⟩, by decide⟩

theorem State.decoder_yields : State.decoder.Yields Storable := by
  have hword : integer64.Yields fun n => -(2 : Int) ^ 63 ≤ n ∧ n < 2 ^ 63 := signed_yields 64 "i64"
  refine record_yields storable_blank ?_
  simp only [List.forall_mem_cons, List.not_mem_nil, false_implies, implies_true, and_true]
  exact ⟨
    .of_yields Matrix.decoder_yields fun _ _ hs hm => ⟨⟨hm, hs.target, hs.positions⟩, hs.energy⟩,
    .of_yields Matrix.decoder_yields fun _ _ hs hm => ⟨⟨hs.matrix, hm, hs.positions⟩, hs.energy⟩,
    .of_yields (list_yields Bot.decoder_yields) fun _ _ hs hbots =>
      ⟨⟨hs.matrix, hs.target, hbots⟩, hs.energy⟩,
    .of_yields hword fun _ _ hs henergy => ⟨⟨hs.matrix, hs.target, hs.positions⟩, henergy⟩,
    .of_decoder fun _ _ hs => ⟨⟨hs.matrix, hs.target, hs.positions⟩, hs.energy⟩,
    .of_decoder fun _ _ hs => ⟨⟨hs.matrix, hs.target, hs.positions⟩, hs.energy⟩⟩

namespace Snapshot

variable {s : Snapshot}

theorem decoder_yields : Snapshot.decoder.Yields Storable := by
  refine record_yields ⟨by decide, by decide, State.storable_blank⟩ ?_
  simp only [List.forall_mem_cons, List.not_mem_nil, false_implies, implies_true, and_true]
  exact ⟨.of_yields (natural_yields 64 "usize") fun _ _ hs hn => ⟨hn, hs.steps, hs.state⟩,
    .of_yields (natural_yields 64 "u64") fun _ _ hs hn => ⟨hs.traceOffset, hn, hs.state⟩,
    .of_yields State.decoder_yields fun _ _ hs hstate => ⟨hs.traceOffset, hs.steps, hstate⟩⟩

/-- What is read from a text can be stored. -/
theorem storable_of_decode {text : String} (h : decode text = .ok s) : s.Storable := by
  obtain ⟨-, fourth, -, -, hpayload⟩ := decode_eq_ok_iff.1 h
  obtain ⟨bytes, -, hrun⟩ := decodePayload_eq_ok_iff.1 hpayload
  exact run_yields decoder_yields hrun

/-- A snapshot is read back from its text, with blanks around it or not, if and only if its numbers
fit their words and its matrices are consistent and of a side that the format admits. The state that
it holds need not make sense. -/
theorem decode_padded_iff (s : Snapshot) {before after : List Char}
    (hbefore : ∀ c ∈ before, Blank.holds c = true) (hafter : ∀ c ∈ after, Blank.holds c = true) :
    decode (String.ofList before ++ s.encode ++ String.ofList after) = .ok s ↔ s.Storable :=
  ⟨storable_of_decode, fun h => decode_padded h hbefore hafter⟩

/-- The first state of a run, marked as halted and with less than no energy spent, at the greatest
offset that fits its word. -/
def farthest : Snapshot where
  traceOffset := 2 ^ 64 - 1
  steps := 7
  state := { State.start (Matrix.empty 3) (Matrix.empty 3) with energy := -5, halted := true }

theorem decode_padded_farthest :
    farthest.Storable ∧
      decode (String.ofList ['\t', ' '] ++ farthest.encode ++ String.ofList ['\r', '\n']) =
        .ok farthest ∧
      decode (String.ofList [] ++ { farthest with traceOffset := 2 ^ 64 }.encode ++
        String.ofList ['\n']) ≠ .ok { farthest with traceOffset := 2 ^ 64 } := by
  have hempty : (Matrix.empty 3).Storable := ⟨.empty 3, by decide⟩
  have hstart := State.packable_start hempty hempty
  have hstorable : farthest.Storable :=
    ⟨by decide, by decide, ⟨⟨hstart.matrix, hstart.target, hstart.positions⟩, by decide⟩⟩
  have hbefore : ∀ c ∈ ['\t', ' '], Blank.holds c = true :=
    List.forall_mem_cons.2 ⟨by decide, List.forall_mem_singleton.2 (by decide)⟩
  have hafter : ∀ c ∈ ['\r', '\n'], Blank.holds c = true :=
    List.forall_mem_cons.2 ⟨by decide, List.forall_mem_singleton.2 (by decide)⟩
  refine ⟨hstorable, (decode_padded_iff farthest hbefore hafter).2 hstorable, fun h => ?_⟩
  have hfits := ((decode_padded_iff { farthest with traceOffset := 2 ^ 64 }
    (List.forall_mem_nil _) (List.forall_mem_singleton.2 (by decide))).1 h).traceOffset
  exact absurd hfits (by decide)

end Snapshot

end VoxelSwarm
