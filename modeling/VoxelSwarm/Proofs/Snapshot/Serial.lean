import VoxelSwarm.Proofs.Json.Decoding
import VoxelSwarm.Proofs.Json.RoundTrip
import VoxelSwarm.Proofs.Matrix.Format
import VoxelSwarm.Snapshot.Basic

/-!
# States come back from JSON

`Storable` says what a state has to be like to be stored: its numbers fit the words that the format
has for them, and its matrices are ones that the format admits. A storable state is given back by
its decoder (`State.decoder_toJson`), and its JSON form is one that is read as it was written
(`State.plain_toJson`).
-/

namespace VoxelSwarm

open Json.Decoder

/-! ## Matrices -/

namespace Matrix

/-- A matrix whose numbers fit words, whether its fields agree or not. -/
structure Fits (m : Matrix) : Prop where
  resolution : m.resolution < 2 ^ 32
  fullCount : m.fullCount < 2 ^ 64

/-- A matrix that the format admits. -/
structure Storable (m : Matrix) : Prop where
  consistent : m.Consistent
  resolution_le : m.resolution ≤ maxResolution

variable {m : Matrix}

theorem Storable.fits (h : m.Storable) : m.Fits where
  resolution := Nat.lt_of_le_of_lt h.resolution_le (by decide)
  fullCount := by
    have hcount : m.fullCount ≤ volume m.resolution := by
      rw [h.consistent.count]
      exact List.countP_le_length.trans (List.length_range).le
    have hvolume : volume m.resolution ≤ volume maxResolution :=
      Nat.mul_le_mul (Nat.mul_le_mul h.resolution_le h.resolution_le) h.resolution_le
    exact Nat.lt_of_le_of_lt (hcount.trans hvolume) (by decide)

theorem packedDecoder_toJson (h : m.Fits) :
    packedDecoder m.toJson.reading = .ok ⟨m.resolution, m.fullCount, m.data.toList⟩ := by
  refine record_object rfl (by decide) ?_
  simp only [List.map_cons, List.map_nil, Json.itemReadings, setItems, natural32, size,
    natural_nat h.resolution, natural_nat h.fullCount, list_array fun byte _ => byte_nat byte]
  rfl

theorem decoder_toJson (h : m.Storable) : Matrix.decoder m.toJson.reading = .ok m := by
  rw [Matrix.decoder, packedDecoder_toJson h.fits]
  simp only [bind, Except.bind, h.consistent.ofParts h.resolution_le]
  rfl

theorem plain_toJson (h : m.Fits) : m.toJson.Plain :=
  ⟨Json.plain_nat (h.resolution.trans (by decide)), Json.plain_nat h.fullCount,
    Json.plainItems_map fun byte _ => Json.plain_nat (byte.toNat_lt.trans (by decide)), trivial⟩

end Matrix

/-! ## Bots -/

structure Position.Storable (p : Position) : Prop where
  x : -(2 : Int) ^ 31 ≤ p.x ∧ p.x < 2 ^ 31
  y : -(2 : Int) ^ 31 ≤ p.y ∧ p.y < 2 ^ 31
  z : -(2 : Int) ^ 31 ≤ p.z ∧ p.z < 2 ^ 31

theorem Position.decoder_toJson {p : Position} (h : p.Storable) :
    Position.decoder p.toJson.reading = .ok p := by
  refine record_object rfl (by decide) ?_
  simp only [List.map_cons, List.map_nil, Json.itemReadings, setItems, integer32_int h.x,
    integer32_int h.y, integer32_int h.z]
  rfl

theorem Position.plain_toJson {p : Position} (h : p.Storable) : p.toJson.Plain := by
  obtain ⟨hx, hy, hz⟩ := h
  exact ⟨Json.plain_int (by omega), Json.plain_int (by omega), Json.plain_int (by omega), trivial⟩

theorem BotId.decoder_toJson (id : BotId) : BotId.decoder id.toJson.reading = .ok id := by
  rw [BotId.decoder, BotId.toJson, BotId.index, byte_nat]
  rfl

theorem BotId.plain_toJson (id : BotId) : id.toJson.Plain :=
  Json.plain_nat (id.value.toNat_lt.trans (by decide))

theorem Bot.decoder_toJson {b : Bot} (h : b.position.Storable) :
    Bot.decoder b.toJson.reading = .ok b := by
  refine record_object rfl (by decide) ?_
  simp only [List.map_cons, List.map_nil, Json.itemReadings, setItems, BotId.decoder_toJson,
    Position.decoder_toJson h, list_array fun id _ => BotId.decoder_toJson id]
  rfl

theorem Bot.plain_toJson {b : Bot} (h : b.position.Storable) : b.toJson.Plain :=
  ⟨b.id.plain_toJson, Position.plain_toJson h,
    Json.plainItems_map fun id _ => BotId.plain_toJson id, trivial, trivial⟩

/-! ## States -/

theorem Harmonics.decoder_toJson (h : Harmonics) : Harmonics.decoder h.toJson.reading = .ok h := by
  cases h <;> rfl

namespace State

/-- A state that can be stored but for its energy. -/
structure Packable (s : State) : Prop where
  matrix : s.matrix.Storable
  target : s.target.Storable
  positions : ∀ b ∈ s.bots.toList, b.position.Storable

/-- A state whose numbers fit words and whose matrices the format admits. -/
structure Storable (s : State) : Prop extends s.Packable where
  energy : -(2 : Int) ^ 63 ≤ s.energy ∧ s.energy < 2 ^ 63

variable {s : State}

theorem decoder_toJson (h : s.Storable) : State.decoder s.toJson.reading = .ok s := by
  refine record_object rfl (by decide) ?_
  simp only [List.map_cons, List.map_nil, Json.itemReadings, setItems,
    Matrix.decoder_toJson h.matrix, Matrix.decoder_toJson h.target, integer64_int h.energy,
    list_array fun b hb => Bot.decoder_toJson (h.positions b hb), Harmonics.decoder_toJson]
  rfl

theorem plain_toJson (h : s.Storable) : s.toJson.Plain :=
  ⟨Matrix.plain_toJson h.matrix.fits, Matrix.plain_toJson h.target.fits,
    Json.plainItems_map fun b hb => Bot.plain_toJson (h.positions b hb),
    Json.plain_int h.energy, trivial, trivial, trivial⟩

end State

end VoxelSwarm
