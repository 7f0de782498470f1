import VoxelSwarm.Geometry.Position

/-!
# The order of positions

Positions are ordered by their coordinates in turn. The order is linear; sorting uses it through
its complement, `¬q < p`, and what it gives ascends (`pairwise_mergeSort`). Inside a grid it is the
order of the numbers of the voxels (`pack_lt_pack_iff`).
-/

namespace VoxelSwarm.Position

variable {p q r : Position}

theorem lt_iff :
    p < q ↔ p.x < q.x ∨ p.x = q.x ∧ (p.y < q.y ∨ p.y = q.y ∧ p.z < q.z) :=
  Iff.rfl

theorem not_lt_self (p : Position) : ¬p < p := by
  rw [lt_iff]
  omega

theorem ne_of_lt (h : p < q) : p ≠ q := by
  rintro rfl
  exact not_lt_self p h

theorem not_lt_total (p q : Position) : ¬q < p ∨ ¬p < q := by
  rw [lt_iff, lt_iff]
  omega

theorem not_lt_trans (hpq : ¬q < p) (hqr : ¬r < q) : ¬r < p := by
  rw [lt_iff] at *
  omega

theorem eq_of_not_lt (hpq : ¬q < p) (hqp : ¬p < q) : p = q := by
  rw [lt_iff] at hpq hqp
  ext <;> omega

theorem pairwise_mergeSort (ps : List Position) :
    (ps.mergeSort fun p q => decide (¬q < p)).Pairwise fun p q => ¬q < p := by
  have htrans (p q r : Position) (hpq : decide (¬q < p) = true) (hqr : decide (¬r < q) = true) :
      decide (¬r < p) = true :=
    decide_eq_true (not_lt_trans (of_decide_eq_true hpq) (of_decide_eq_true hqr))
  have htotal (p q : Position) : (decide (¬q < p) || decide (¬p < q)) = true := by
    simpa only [Bool.or_eq_true, decide_eq_true_eq] using not_lt_total p q
  exact (List.pairwise_mergeSort htrans htotal ps).imp fun hpq => of_decide_eq_true hpq

/-! ## The order of the numbers -/

theorem mul_add_lt_mul_add_iff {base a b c d : Nat} (hb : b < base) (hd : d < base) :
    a * base + b < c * base + d ↔ a < c ∨ a = c ∧ b < d := by
  rcases Nat.lt_trichotomy a c with hac | rfl | hac
  · have := Nat.mul_le_mul_right base (Nat.succ_le_of_lt hac)
    rw [Nat.succ_mul] at this
    omega
  · omega
  · have := Nat.mul_le_mul_right base (Nat.succ_le_of_lt hac)
    rw [Nat.succ_mul] at this
    omega

theorem pack_lt_pack_iff {side : Nat} (hp : p.Inside side) (hq : q.Inside side) :
    p.pack side < q.pack side ↔ p < q := by
  obtain ⟨⟨hpx, -⟩, ⟨hpy, hpy'⟩, hpz, hpz'⟩ := hp
  obtain ⟨⟨hqx, -⟩, ⟨hqy, hqy'⟩, hqz, hqz'⟩ := hq
  -- the numbers compare the rows before the voxels in them, and the rows likewise
  have hrow := mul_add_lt_mul_add_iff (a := p.x.toNat) (c := q.x.toNat)
    (show p.y.toNat < side by omega) (show q.y.toNat < side by omega)
  have hrow' := mul_add_lt_mul_add_iff (a := q.x.toNat) (c := p.x.toNat)
    (show q.y.toNat < side by omega) (show p.y.toNat < side by omega)
  simp only [pack]
  rw [mul_add_lt_mul_add_iff (by omega) (by omega), lt_iff]
  omega

end VoxelSwarm.Position
