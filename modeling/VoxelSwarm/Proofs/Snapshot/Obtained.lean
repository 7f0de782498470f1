import VoxelSwarm.Proofs.Matrix.ModelFile
import VoxelSwarm.Proofs.Snapshot.Storable

/-!
# The matrices of a program

A program starts a matrix empty, reads it from a model file or decodes it, and then writes it voxel
by voxel (`Obtained`). All three give a consistent matrix, whether they clear the padding, refuse it
when it is set or never set it, and writing keeps it so (`Obtained.consistent`). So the fields of
every matrix that a program holds are those that its voxels ask for, and the matrix is determined by
its side and its voxels. Of the triples that a text may hold just these are decoded
(`decoder_eq_ok_iff`), up to the greatest side.
-/

namespace VoxelSwarm.Matrix

open Json Json.Decoder

variable {m : Matrix} {r n : Nat} {data : Array UInt8}

/-! ## Matrices that are decoded -/

/-- The three fields as they are, whether they agree or not. -/
def Packed.matrix (packed : Packed) : Matrix :=
  ⟨packed.resolution, packed.fullCount, packed.data.toArray⟩

theorem ofParts_eq_ok_iff_exact :
    ofParts r n data = .ok m ↔ m = ⟨r, n, data⟩ ∧ m.resolution ≤ maxResolution ∧ m.Exact := by
  constructor
  · intro h
    have hle := resolution_of_ofParts h
    have hconsistent := consistent_of_ofParts h
    obtain ⟨-, -, -, rfl⟩ := ofParts_eq_ok_iff.1 h
    exact ⟨rfl, hle, consistent_iff_exact.1 hconsistent⟩
  · rintro ⟨rfl, hle, hexact⟩
    exact (consistent_iff_exact.2 hexact).ofParts hle

/-- Fields that have been decoded, in whatever form they were given, are accepted as they are when
they agree and the side is within the limit. -/
theorem decoder_eq_ok_iff {reading : Reading} {packed : Packed}
    (h : packedDecoder reading = .ok packed) :
    Matrix.decoder reading = .ok m ↔
      m = packed.matrix ∧ m.resolution ≤ maxResolution ∧ m.Exact := by
  rw [Packed.matrix, ← ofParts_eq_ok_iff_exact, decoder, h]
  simp only [bind, Except.bind]
  cases ofParts packed.resolution packed.fullCount packed.data.toArray with
  | ok found =>
    exact ⟨fun h => congrArg _ (Except.ok.inj h), fun h => congrArg _ (Except.ok.inj h)⟩
  | error e =>
    constructor
    · intro h
      cases h
    · intro h
      cases h

theorem fits_words (r : UInt32) (n : UInt64) (data : Array UInt8) :
    Fits ⟨r.toNat, n.toNat, data⟩ :=
  ⟨r.toNat_lt, n.toNat_lt⟩

/-! ## Matrices that a program holds -/

/-- A matrix that is started empty, read from a model file or decoded, and then written at positions
of its grid, any number of times. -/
inductive Obtained : Matrix → Prop
  | empty (r : Nat) : Obtained (.empty r)
  | parse {bytes : List UInt8} {m : Matrix} (h : Matrix.parse bytes = .ok m) : Obtained m
  | decode {reading : Reading} {m : Matrix} (h : Matrix.decoder reading = .ok m) : Obtained m
  | set {m : Matrix} {p : Position} (value : Bool) (h : Obtained m) (hp : m.Holds p) :
    Obtained (m.set p value)

theorem Obtained.consistent (h : m.Obtained) : m.Consistent := by
  induction h with
  | empty r => exact .empty r
  | parse h => exact consistent_of_parse h
  | decode h => exact (decoder_yields _ _ h).consistent
  | set value _ _ ih => exact ih.set _ value

theorem Consistent.eq_iff {m' : Matrix} (h : m.Consistent) (h' : m'.Consistent) :
    m = m' ↔ m.resolution = m'.resolution ∧ ∀ p, m.Holds p → m.get p = m'.get p := by
  constructor
  · rintro rfl
    exact ⟨rfl, fun _ _ => rfl⟩
  · rintro ⟨hr, hget⟩
    refine h.ext h' hr fun p => ?_
    by_cases hp : m.Holds p
    · exact hget p hp
    · have hp' : ¬m'.Holds p := by rwa [Holds, ← hr]
      rw [get_eq_false hp, get_eq_false hp']

/-- Whatever a program has done to get hold of a matrix, its fields are exact, a voxel that is
written is read as it was written and every other one as before, and equal matrices are those of one
side with equal voxels. Decoded are just the triples whose side is at most 250 and whose fields are
exact: of any form that gives the three fields, and of the text of any three fields that fit their
words. -/
theorem obtained_exact :
    (∀ m : Matrix, m.Obtained → m.Exact ∧ ∀ p value, m.Holds p →
      (m.set p value).get p = value ∧
        ∀ q, m.Holds q → q ≠ p → (m.set p value).get q = m.get q) ∧
    (∀ m m' : Matrix, m.Obtained → m'.Obtained →
      (m = m' ↔ m.resolution = m'.resolution ∧ ∀ p, m.Holds p → m.get p = m'.get p)) ∧
    (∀ reading packed, packedDecoder reading = .ok packed → ∀ m,
      (Matrix.decoder reading = .ok m ↔ m = packed.matrix ∧ m.resolution ≤ 250 ∧ m.Exact)) ∧
    ∀ (r : UInt32) (n : UInt64) (data : Array UInt8) (m : Matrix),
      Matrix.decoder.run (toJson ⟨r.toNat, n.toNat, data⟩).bytes = .ok m ↔
        m = ⟨r.toNat, n.toNat, data⟩ ∧ m.resolution ≤ 250 ∧ m.Exact := by
  refine ⟨fun m h => ⟨consistent_iff_exact.1 h.consistent, fun p value hp => ⟨?_, ?_⟩⟩,
    fun m m' h h' => h.consistent.eq_iff h'.consistent,
    fun reading packed h m => decoder_eq_ok_iff h, fun r n data m => ?_⟩
  · rw [h.consistent.get_set hp, if_pos rfl]
  · intro q _ hne
    rw [h.consistent.get_set hp, if_neg (Ne.symm hne)]
  · have hfits := fits_words r n data
    rw [decoder.run_bytes (plain_toJson hfits), decoder_eq_ok_iff (packedDecoder_toJson hfits)]
    rfl

/-- Of the two corners of a file with set padding one is voided, which leaves what is filled in an
empty grid. In a text the padding is not cleared but refused. -/
theorem obtained_exact_corners : corners.Obtained ∧
    (corners.set ⟨2, 2, 2⟩ false).get ⟨0, 0, 0⟩ = true ∧
    corners.set ⟨2, 2, 2⟩ false = (empty 3).set ⟨0, 0, 0⟩ true ∧
    Matrix.decoder corners.toJson.reading = .ok corners ∧
    ∀ m, Matrix.decoder.run (toJson ⟨3, 2, #[1, 0, 0, 252]⟩).bytes ≠ .ok m := by
  obtain ⟨hlaws, hequal, hpacked, htext⟩ := obtained_exact
  have hcorners : corners.Obtained :=
    .parse (show parse [3, 1, 0, 0, 252] = .ok corners by decide +kernel)
  have hhigh : corners.Holds ⟨2, 2, 2⟩ := by decide
  have hlow : (empty 3).Holds ⟨0, 0, 0⟩ := by decide
  obtain ⟨hexact, hset⟩ := hlaws corners hcorners
  obtain ⟨-, hother⟩ := hset ⟨2, 2, 2⟩ false hhigh
  refine ⟨hcorners, ?_, ?_, ?_, fun m h => ?_⟩
  · exact (hother ⟨0, 0, 0⟩ (by decide) (by decide)).trans (by decide)
  · refine (hequal _ _ (hcorners.set false hhigh) ((Obtained.empty 3).set true hlow)).2
      ⟨rfl, fun p hp => ?_⟩
    have hall : ∀ i < 27, (corners.set ⟨2, 2, 2⟩ false).get (.unpack 3 i) =
        ((empty 3).set ⟨0, 0, 0⟩ true).get (.unpack 3 i) := by decide +kernel
    rw [← Position.unpack_pack hp]
    exact hall _ (Position.pack_lt hp)
  · have hread := packedDecoder_toJson (m := corners) ⟨by decide, by decide⟩
    exact (hpacked _ _ hread corners).2 ⟨rfl, by decide, hexact⟩
  · obtain ⟨rfl, -, hbroken⟩ := (htext 3 2 #[1, 0, 0, 252] m).1 h
    exact absurd (hbroken.padding 31 (by decide)) (by decide)

end VoxelSwarm.Matrix
