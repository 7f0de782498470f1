import VoxelSwarm.Proofs.Geometry.Boxes
import VoxelSwarm.Proofs.Geometry.Order
import VoxelSwarm.Proofs.Matrix.Flood

/-!
# The full voxels, listed and counted

The full voxels of a matrix are told in three ways. `fullVoxels` goes through the numbers of the
bits and turns each set one into a position, `countInside` goes through the positions of a box and
looks each of them up, and the count is kept from write to write. The list is exact and ascends,
because a voxel and its number determine each other and are ordered alike; the box counts the voxels
of the list that lie in it; and the list is as long as the count says (`fullVoxels_exact`).
-/

namespace VoxelSwarm

/-- A voxel lies between two others when it does so along every axis. -/
def Position.Between (a b p : Position) : Prop :=
  (min a.x b.x ≤ p.x ∧ p.x ≤ max a.x b.x) ∧ (min a.y b.y ≤ p.y ∧ p.y ≤ max a.y b.y) ∧
    (min a.z b.z ≤ p.z ∧ p.z ≤ max a.z b.z)

instance (a b p : Position) : Decidable (Position.Between a b p) :=
  inferInstanceAs (Decidable ((_ ∧ _) ∧ (_ ∧ _) ∧ (_ ∧ _)))

/-! ## Counting in a box -/

namespace Region

theorem contains_spanning_iff {a b p : Position} :
    (spanning a b).Contains p ↔ Position.Between a b p :=
  Iff.rfl

theorem foldl_countP {α β : Type} (keep : β → Bool) (part : α → List β) (xs : List α)
    (total : Nat) :
    xs.foldl (fun total x => total + (part x).countP keep) total =
      total + (xs.flatMap part).countP keep := by
  induction xs generalizing total with
  | nil => rfl
  | cons x xs ih =>
    rw [List.foldl_cons, ih, List.flatMap_cons, List.countP_append, Nat.add_assoc]

theorem count_eq_countP (g : Region) (keep : Position → Bool) :
    g.count keep = g.voxels.countP keep := by
  have hrow (x y : Int) : (interval g.lo.z g.hi.z).countP (fun z => keep ⟨x, y, z⟩) =
      ((interval g.lo.z g.hi.z).map fun z => (⟨x, y, z⟩ : Position)).countP keep :=
    List.countP_map.symm
  simp only [count, hrow, foldl_countP, Nat.zero_add]
  rfl

end Region

namespace Matrix

variable {m : Matrix} {p : Position}

/-! ## The list -/

/-- Going down from `n`, what is kept is put in front of what was found already. -/
theorem foldRev_eq_filter (keep : Nat → Bool) (n : Nat) (found : List Nat) :
    n.foldRev (fun i _ found => if keep i then i :: found else found) found =
      (List.range n).filter keep ++ found := by
  induction n generalizing found with
  | zero => rfl
  | succ n ih =>
    rw [Nat.foldRev_succ, ih, List.range_succ, List.filter_append, List.filter_singleton]
    cases keep n <;> simp

theorem fullVoxels_eq (m : Matrix) : m.fullVoxels =
    ((List.range (volume m.resolution)).filter m.bit).map (Position.unpack m.resolution) := by
  rw [fullVoxels, fullIndices, foldRev_eq_filter, List.append_nil]

theorem mem_fullVoxels : p ∈ m.fullVoxels ↔ m.Full p := by
  simp only [fullVoxels_eq, List.mem_map, List.mem_filter, List.mem_range]
  constructor
  · rintro ⟨i, ⟨hi, hbit⟩, rfl⟩
    rwa [Full, ← bit_eq_get m hi]
  · intro hfull
    have hp := hfull.holds
    exact ⟨p.pack m.resolution, ⟨pack_lt_volume hp, get_eq_bit hp ▸ hfull⟩,
      Position.unpack_pack hp⟩

theorem unpack_lt_unpack {r i j : Nat} (hij : i < j) (hj : j < volume r) :
    Position.unpack r i < Position.unpack r j := by
  have hi : i < volume r := Nat.lt_trans hij hj
  rwa [← Position.pack_lt_pack_iff (Position.inside_unpack hi) (Position.inside_unpack hj),
    Position.pack_unpack, Position.pack_unpack]

theorem pairwise_fullVoxels (m : Matrix) : m.fullVoxels.Pairwise (· < ·) := by
  rw [fullVoxels_eq, List.pairwise_map]
  refine (List.pairwise_lt_range.filter _).imp_of_mem fun _ hj hij => unpack_lt_unpack hij ?_
  exact List.mem_range.1 (List.mem_filter.1 hj).1

theorem nodup_fullVoxels (m : Matrix) : m.fullVoxels.Nodup :=
  (pairwise_fullVoxels m).imp Position.ne_of_lt

theorem length_fullVoxels (h : m.Consistent) : m.fullVoxels.length = m.fullCount := by
  rw [fullVoxels_eq, List.length_map, ← List.countP_eq_length_filter, h.count]

/-! ## Boxes of the grid -/

theorem countP_voxels (m : Matrix) (g : Region) :
    g.voxels.countP m.get = m.fullVoxels.countP fun p => decide (g.Contains p) := by
  have hperm : (g.voxels.filter m.get).Perm
      (m.fullVoxels.filter fun p => decide (g.Contains p)) := by
    refine (List.perm_ext_iff_of_nodup (g.nodup_voxels.filter _)
      ((nodup_fullVoxels m).filter _)).2 fun p => ?_
    simp only [List.mem_filter, Region.mem_voxels, mem_fullVoxels, decide_eq_true_iff, and_comm,
      Full]
  rw [List.countP_eq_length_filter, List.countP_eq_length_filter, hperm.length_eq]

theorem countInside_eq {a b : Position} (ha : m.Holds a) (hb : m.Holds b) :
    m.countInside a b = .ok (m.fullVoxels.countP fun p => decide (Position.Between a b p)) := by
  have hinside : (Region.spanning a b).firstOutside m.resolution = none :=
    Region.firstOutside_eq_none_iff.2 fun _ hp => Region.inside_of_spanning ha hb hp
  simp only [countInside, hinside, Region.count_eq_countP, countP_voxels,
    Region.contains_spanning_iff]

/-- The full voxels are listed exactly, each once and in ascending order, and the list is as long as
the count says. In a box between two voxels of the grid, whichever of its corners they are, as many
are counted as the list has between them; and all of them, if the whole grid is. -/
theorem fullVoxels_exact (h : m.Consistent) :
    (∀ p, p ∈ m.fullVoxels ↔ m.Holds p ∧ m.get p = true) ∧
    m.fullVoxels.Nodup ∧ m.fullVoxels.Pairwise (· < ·) ∧ m.fullVoxels.length = m.fullCount ∧
    (∀ a b, m.Holds a → m.Holds b →
      m.countInside a b = .ok (m.fullVoxels.countP fun p => decide (Position.Between a b p))) ∧
    (∀ a b, m.Holds a → m.Holds b → (∀ p, m.Holds p → Position.Between a b p) →
      m.countInside a b = .ok m.fullCount) := by
  have hmem (p : Position) : p ∈ m.fullVoxels ↔ m.Holds p ∧ m.get p = true :=
    mem_fullVoxels.trans ⟨fun hfull => ⟨hfull.holds, hfull⟩, And.right⟩
  refine ⟨hmem, nodup_fullVoxels m, pairwise_fullVoxels m, length_fullVoxels h,
    fun a b => countInside_eq, fun a b ha hb hall => ?_⟩
  have hevery : ∀ p ∈ m.fullVoxels, decide (Position.Between a b p) = true := fun p hp =>
    decide_eq_true (hall p ((hmem p).1 hp).1)
  rw [countInside_eq ha hb, List.countP_eq_length.2 hevery, length_fullVoxels h]

def layered : Matrix := (empty 3).setAll
  [⟨0, 0, 0⟩, ⟨0, 1, 1⟩, ⟨1, 2, 0⟩, ⟨1, 2, 1⟩, ⟨1, 2, 2⟩, ⟨2, 0, 2⟩, ⟨2, 1, 1⟩, ⟨2, 1, 2⟩] true

theorem fullVoxels_exact_layered : layered.Consistent ∧ layered.fullVoxels =
      [⟨0, 0, 0⟩, ⟨0, 1, 1⟩, ⟨1, 2, 0⟩, ⟨1, 2, 1⟩, ⟨1, 2, 2⟩, ⟨2, 0, 2⟩, ⟨2, 1, 1⟩, ⟨2, 1, 2⟩] ∧
    layered.fullCount = 8 ∧ layered.countInside ⟨2, 2, 2⟩ ⟨1, 0, 0⟩ = .ok 6 ∧
    layered.countInside ⟨0, 2, 0⟩ ⟨2, 0, 2⟩ = .ok layered.fullCount := by
  have hconsistent : layered.Consistent := (Consistent.empty 3).setAll ..
  have hlist : layered.fullVoxels =
      [⟨0, 0, 0⟩, ⟨0, 1, 1⟩, ⟨1, 2, 0⟩, ⟨1, 2, 1⟩, ⟨1, 2, 2⟩, ⟨2, 0, 2⟩, ⟨2, 1, 1⟩, ⟨2, 1, 2⟩] := by
    decide +kernel
  have hresolution : layered.resolution = 3 := resolution_setAll ..
  obtain ⟨-, -, -, hlength, hbox, hgrid⟩ := fullVoxels_exact hconsistent
  refine ⟨hconsistent, hlist, by rw [← hlength, hlist]; rfl, ?_, ?_⟩
  · rw [hbox _ _ (by decide +kernel) (by decide +kernel), hlist]
    rfl
  · refine hgrid _ _ (by decide +kernel) (by decide +kernel) fun p hp => ?_
    simp only [Holds, Position.Inside, hresolution] at hp
    simp only [Position.Between]
    omega

end Matrix

end VoxelSwarm
