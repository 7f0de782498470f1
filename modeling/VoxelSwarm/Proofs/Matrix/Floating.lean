import Mathlib.Data.Set.Card
import VoxelSwarm.Proofs.Matrix.Voxels

/-!
# Floating voxels

A full voxel that no chain links to the ground plane floats. Both numbers that are subtracted for
`floatingCount` are numbers of voxels, of the full ones (`ncard_full`) and of the grounded ones
(`ncard_grounded`), and the grounded ones are full. So the subtraction is exact
(`groundedCount_le_fullCount`) and its result is the number of voxels that float
(`floatingCount_eq_ncard`). The list of grounded voxels is exact, and nothing floats just when every
full voxel is in it (`grounded_exact`).
-/

namespace VoxelSwarm.Matrix

/-- The voxel is full, and no chain of full voxels leads to it from the ground plane. -/
def Floats (m : Matrix) (p : Position) : Prop := m.Full p ∧ ¬m.Grounded p

variable {m : Matrix}

theorem ncard_of_mem_iff {P : Position → Prop} {ps : List Position} (hnodup : ps.Nodup)
    (hmem : ∀ p, p ∈ ps ↔ P p) : {p | P p}.Finite ∧ {p | P p}.ncard = ps.length := by
  have hset : {p | P p} = (ps.toFinset : Set Position) := by
    ext p
    simp [hmem]
  rw [hset, Set.ncard_coe_finset, List.toFinset_card_of_nodup hnodup]
  exact ⟨ps.toFinset.finite_toSet, rfl⟩

theorem ncard_full_eq_countP (m : Matrix) : {p | m.Full p}.Finite ∧
    {p | m.Full p}.ncard = (List.range (volume m.resolution)).countP m.bit := by
  obtain ⟨hfinite, hcard⟩ := ncard_of_mem_iff (P := m.Full) (nodup_fullVoxels m) fun p =>
    mem_fullVoxels
  exact ⟨hfinite, by rw [hcard, fullVoxels_eq, List.length_map, ← List.countP_eq_length_filter]⟩

theorem ncard_full (h : m.Consistent) :
    {p | m.Full p}.Finite ∧ {p | m.Full p}.ncard = m.fullCount := by
  rw [h.count]
  exact ncard_full_eq_countP m

theorem ncard_grounded (h : m.Consistent) : {p | m.Grounded p}.ncard = m.groundedCount := by
  have hmem : ∀ p, p ∈ m.grounded.toList ↔ m.Grounded p := fun p => by
    rw [Array.mem_toList_iff, mem_grounded h]
  rw [(ncard_of_mem_iff (nodup_grounded m) hmem).2, Array.length_toList, groundedCount]

theorem groundedCount_le_fullCount (h : m.Consistent) : m.groundedCount ≤ m.fullCount := by
  rw [← ncard_grounded h, ← (ncard_full h).2]
  exact Set.ncard_le_ncard (fun p hp => hp.full) (ncard_full h).1

theorem floatingCount_eq_ncard (h : m.Consistent) : m.floatingCount = {p | m.Floats p}.ncard := by
  have hsub : {p | m.Grounded p} ⊆ {p | m.Full p} := fun p hp => hp.full
  have hdiff : {p | m.Floats p} = {p | m.Full p} \ {p | m.Grounded p} := rfl
  rw [hdiff, Set.ncard_sdiff hsub ((ncard_full h).1.subset hsub), ncard_grounded h,
    (ncard_full h).2, floatingCount]

theorem floatingCount_eq_zero_iff (h : m.Consistent) :
    m.floatingCount = 0 ↔ ∀ p, m.Full p → m.Grounded p := by
  have hfinite : {p | m.Floats p}.Finite := (ncard_full h).1.subset fun p hp => hp.1
  rw [floatingCount_eq_ncard h, Set.ncard_eq_zero hfinite, Set.eq_empty_iff_forall_notMem]
  simp only [Set.mem_ofPred_eq, Floats, not_and, not_not]

/-! ## The grounded voxels -/

theorem grounded_iff_linked {p : Position} :
    m.Grounded p ↔ m.Full p ∧ ∃ q, q.y = 0 ∧ Linked m.Full p q := by
  constructor
  · rintro ⟨q, hq, hlinked⟩
    exact ⟨hlinked.right, q, hq, hlinked.symm⟩
  · rintro ⟨-, q, hq, hlinked⟩
    exact ⟨q, hq, hlinked.symm⟩

theorem isGrounded_iff_floatingCount (h : m.Consistent) :
    m.isGrounded = true ↔ m.floatingCount = 0 := by
  have hle := groundedCount_le_fullCount h
  simp only [isGrounded, floatingCount, Bool.or_eq_true, beq_iff_eq]
  omega

/-- The list of grounded voxels has each full voxel from which a chain of full voxels leads to the
ground plane, once, and no other. Its length is the count of grounded voxels, which is no more than
that of the full ones, and the matrix is grounded just when every full voxel is in the list. -/
theorem grounded_exact (h : m.Consistent) :
    m.grounded.toList.Nodup ∧
    (∀ p, p ∈ m.grounded ↔ m.Full p ∧ ∃ q, q.y = 0 ∧ Linked m.Full p q) ∧
    m.groundedCount = m.grounded.size ∧ m.groundedCount ≤ m.fullCount ∧
    (m.isGrounded = true ↔ ∀ p, m.Full p → p ∈ m.grounded) := by
  refine ⟨nodup_grounded m, fun p => ?_, rfl, groundedCount_le_fullCount h, ?_⟩
  · rw [mem_grounded h, grounded_iff_linked]
  · rw [isGrounded_iff_floatingCount h, floatingCount_eq_zero_iff h]
    exact forall₂_congr fun p _ => (mem_grounded h).symm

/-- Two voxels on top of each other, and a third one that shares an edge with the upper one. -/
def ledge : Matrix := (empty 3).setAll [⟨1, 0, 1⟩, ⟨1, 1, 1⟩, ⟨2, 2, 1⟩] true

/-- An edge holds nothing: the third voxel is full and no chain leads from it to the ground. -/
theorem grounded_exact_ledge : ledge.Consistent ∧ ledge.grounded = #[⟨1, 0, 1⟩, ⟨1, 1, 1⟩] ∧
    ledge.groundedCount = 2 ∧ ledge.fullCount = 3 ∧ ledge.isGrounded = false ∧
    ¬∃ q, q.y = 0 ∧ Linked ledge.Full ⟨2, 2, 1⟩ q := by
  have hconsistent : ledge.Consistent := (Consistent.empty 3).setAll ..
  have hlist : ledge.grounded = #[⟨1, 0, 1⟩, ⟨1, 1, 1⟩] := by decide +kernel
  have hfull : ledge.Full ⟨2, 2, 1⟩ := by decide +kernel
  obtain ⟨-, hmem, hcount, -, hall⟩ := grounded_exact hconsistent
  have hfloats : (⟨2, 2, 1⟩ : Position) ∉ ledge.grounded := by
    simp [hlist]
  refine ⟨hconsistent, hlist, by rw [hcount, hlist]; rfl, by decide +kernel, ?_, fun hlinked => ?_⟩
  · exact Bool.eq_false_iff.2 fun hgrounded => hfloats (hall.1 hgrounded _ hfull)
  · exact hfloats ((hmem _).2 ⟨hfull, hlinked⟩)

end VoxelSwarm.Matrix
