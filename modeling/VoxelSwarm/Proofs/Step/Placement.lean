import VoxelSwarm.Proofs.Matrix.Floating
import VoxelSwarm.Proofs.Navigation.Removal
import VoxelSwarm.Proofs.Step.Alone
import VoxelSwarm.Proofs.Step.Hollow

/-!
# Placing voxels one by one

A bot that is alone and under low harmonics may fill or void one voxel in a step just when nothing
floats afterwards (`State.runStep_write`). Where nothing floats before, it takes no search through
the grid to foresee that: a voxel may be filled if it rests on something
(`Matrix.floatingCount_set_true`), and it may be voided if the test for removable voxels says so
(`Matrix.floatingCount_set_false`).
-/

namespace VoxelSwarm

namespace Matrix

variable {m : Matrix} {p : Position}

/-! ## Filling -/

theorem full_set_true_iff (h : m.Consistent) (hp : m.Holds p) {q : Position} :
    (m.set p true).Full q ↔ p = q ∨ m.Full q := by
  rw [Full, h.get_set hp]
  split
  · next heq => simp [heq]
  · next hne => simp [hne]

/-- Filling a voxel leaves none afloat if it is full already, rests on the ground or has a full
neighbor. -/
theorem floatingCount_set_true (h : m.Consistent) (hp : m.Holds p) (hnone : m.floatingCount = 0) :
    (m.set p true).floatingCount = 0 ↔
      m.get p = true ∨ p.y = 0 ∨ ∃ q ∈ p.neighbors m.resolution, m.get q = true := by
  have hgrounded := (floatingCount_eq_zero_iff h).1 hnone
  have hfull : ∀ q, (m.set p true).Full q ↔ p = q ∨ m.Full q := fun q => full_set_true_iff h hp
  rw [floatingCount_eq_zero_iff (h.set p true)]
  constructor
  · intro hafter
    -- the last voxel but one of a chain that leads to `p` is a neighbor
    obtain ⟨g, hg, hlinked⟩ := hafter p ((hfull p).2 (.inl rfl))
    cases hlinked with
    | refl _ => exact .inr (.inl hg)
    | @step q _ hchain htouch _ =>
      have hq : m.Full q := ((hfull q).1 hchain.right).resolve_left htouch.ne.symm
      exact .inr (.inr ⟨q, Position.mem_neighbors.2 ⟨htouch.symm, hq.holds⟩, hq⟩)
  · intro hrests
    have hkept : ∀ q, m.Grounded q → (m.set p true).Grounded q := fun q hq =>
      grounded_mono (fun t ht => (hfull t).2 (.inr ht)) hq
    have hself : (m.set p true).Full p := (hfull p).2 (.inl rfl)
    have hplaced : (m.set p true).Grounded p := by
      rcases hrests with hfilled | hground | ⟨q, hq, hqfull⟩
      · exact hkept p (hgrounded p hfilled)
      · exact .of_ground hground hself
      · have htouch := (Position.mem_neighbors.1 hq).1
        exact (hkept q (hgrounded q hqfull)).step htouch.symm hself
    intro q hq
    rcases (hfull q).1 hq with rfl | hq
    · exact hplaced
    · exact hkept q (hgrounded q hq)

/-! ## Voiding -/

theorem floatingCount_set_false (h : m.Consistent) (hp : m.Holds p) (hnone : m.floatingCount = 0) :
    (m.set p false).floatingCount = 0 ↔ (m.removable p).1 = true := by
  cases hget : m.get p with
  | false =>
    rw [set_eq_self hget, removable, hget]
    exact iff_of_true hnone rfl
  | true =>
    by_cases hcube : (m.neighborhood p).middleRemovable = true
    · have hfree : (m.removable p).1 = true := by
        rw [removable, if_pos (by simp [hcube])]
      refine iff_of_true ((floatingCount_eq_zero_iff (h.set p false)).2 fun q hq => ?_) hfree
      obtain ⟨hfull, hne⟩ := (full_set_iff h hp).1 hq
      exact grounded_of_middleRemovable h hget hcube ((floatingCount_eq_zero_iff h).1 hnone q hfull)
        hne
    · have hcounted : (m.removable p).1 = true ↔
          m.groundedCount - (m.set p false).groundedCount ≤ 1 := by
        rw [removable, if_neg (by simp [hget, hcube]), decide_eq_true_iff]
        rfl
      -- what the second count is short of, but for the voxel itself, is what floats
      have hfull := h.fullCount_set hp false
      have hbefore := groundedCount_le_fullCount h
      have hafter := groundedCount_le_fullCount (h.set p false)
      rw [hget] at hfull
      simp only [Bool.toNat_true, Bool.toNat_false, floatingCount] at hfull hnone
      rw [hcounted, floatingCount]
      omega

end Matrix

/-! ## One voxel in a step -/

def Command.write (value : Bool) (nd : Displacement) : Command :=
  if value then .fill nd else .void nd

namespace State

variable {s : State} {rules : Rules} {b : Bot} {nd : Displacement} {value : Bool}

theorem valid_write (hnd : nd.Near) : (Command.write value nd).Valid := by
  cases value
  all_goals
    intro a ha
    rw [List.mem_singleton.1 ha]
    exact hnd

theorem permits_write {plan : Plan} (hp : s.matrix.Holds (b.position + nd)) :
    s.Permits rules plan b (Command.write value nd) := by
  cases value <;> exact hp

theorem execute_write (hm : s.matrix.Consistent) {id : BotId} {p : Position} (value : Bool)
    (plan : Plan) (hp : s.positionOf id + nd = p) (hholds : s.matrix.Holds p) :
    s.execute plan id (Command.write value nd) =
      ({ s with
          matrix := s.matrix.set p value
          energy := s.energy + Energy.write value (s.matrix.get p) },
        s.matrix.get p != value) := by
  have hexecute : s.execute plan id (Command.write value nd) = s.applyEdit ⟨value, [p]⟩ := by
    cases value <;> exact congrArg (fun q => s.applyEdit ⟨_, [q]⟩) hp
  rw [hexecute, applyEdit_eq hm (by simpa using hholds) (List.nodup_singleton p)]
  simp [Matrix.setAll, Edit.cost]

theorem runStep_write (value : Bool) {σ : Type} [CommandSource σ] {src src' : σ}
    (hm : s.matrix.Consistent) (hwf : s.checkWellFormed = .ok ()) (hlow : s.harmonics = .low)
    (hone : s.activeBots = [b]) (hg : rules.grounding = .everyStep) (hnd : nd.Near)
    (hp : s.matrix.Holds (b.position + nd))
    (hnext : CommandSource.next src = (.ok (.write value nd), src')) :
    (∃ report, (s.runStep rules src).1 = .ok report) ↔
      (s.matrix.set (b.position + nd) value).floatingCount = 0 := by
  obtain ⟨hcoherent, hnone⟩ := checkWellFormed_eq_ok_iff.1 hwf
  have h := hcoherent.lone hone
  have hplace : (s.charge (Energy.passive s 1)).positionOf b.id + nd = b.position + nd := by
    rw [← h.positionOf_eq h.mem]
    rfl
  have hexecute := execute_write (s := s.charge (Energy.passive s 1)) hm value
    (Plan.empty.assign b.id (.write value nd)) hplace hp
  constructor
  · rintro ⟨report, hok⟩
    by_contra hfloats
    -- where nothing has changed, nothing floats
    have hchanged : (s.matrix.get (b.position + nd) != value) = true := by
      rw [bne_iff_ne]
      intro hsame
      exact hfloats (by rw [Matrix.set_eq_self hsame, hnone hlow])
    rw [h.runStep_eq_error hnext (valid_write hnd) (permits_write hp) hexecute ?_
      (Nat.pos_of_ne_zero hfloats)] at hok
    · cases hok
    · simp only [groundingDue, hg]
      simpa [hlow, charge] using hchanged
  · intro hgrounded
    exact ⟨_, congrArg Prod.fst (h.runStep_eq_ok hnext (valid_write hnd) (permits_write hp) hexecute
      fun _ => hgrounded)⟩

/-- A bot that is alone voids a voxel just when the test finds it safe to change, and it fills one
just when that is full already, on the ground plane or next to a full one. -/
theorem placement_decided (hm : s.matrix.Consistent) (hwf : s.checkWellFormed = .ok ())
    (hlow : s.harmonics = .low) (hone : s.activeBots = [b]) (hg : rules.grounding = .everyStep)
    (hnd : nd.Near) (hp : s.matrix.Holds (b.position + nd)) :
    (∀ (σ : Type) [CommandSource σ] (src src' : σ),
      CommandSource.next src = (.ok (.void nd), src') →
        ((∃ report, (s.runStep rules src).1 = .ok report) ↔
          (s.matrix.safeToChange (b.position + nd)).map Prod.fst = .ok true)) ∧
      ∀ (σ : Type) [CommandSource σ] (src src' : σ),
        CommandSource.next src = (.ok (.fill nd), src') →
          ((∃ report, (s.runStep rules src).1 = .ok report) ↔
            s.matrix.get (b.position + nd) = true ∨ (b.position + nd).y = 0 ∨
              ∃ q ∈ (b.position + nd).neighbors s.resolution, s.matrix.get q = true) := by
  have hnone := (checkWellFormed_eq_ok_iff.1 hwf).2 hlow
  constructor
  · intro σ _ src src' hnext
    have htest : (s.matrix.safeToChange (b.position + nd)).map Prod.fst = .ok true ↔
        (s.matrix.removable (b.position + nd)).1 = true := by
      rw [Matrix.safeToChange, if_pos hp]
      exact ⟨Except.ok.inj, congrArg Except.ok⟩
    rw [htest, ← Matrix.floatingCount_set_false hm hp hnone]
    exact runStep_write false hm hwf hlow hone hg hnd hp hnext
  · intro σ _ src src' hnext
    rw [runStep_write true hm hwf hlow hone hg hnd hp hnext]
    exact Matrix.floatingCount_set_true hm hp hnone

def beside : State := ⟨.tower, Matrix.empty 3, foundingSlots, 0, .low, false⟩

theorem placement_decided_beside :
    Matrix.tower.Consistent ∧ beside.checkWellFormed = .ok () ∧ beside.activeBots = [founder] ∧
      ¬(∃ report, (beside.runStep {} (CommandList.ofList [.void ⟨1, 0, 1⟩])).1 = .ok report) ∧
      ∃ report, (beside.runStep {} (CommandList.ofList [.fill ⟨0, 1, 1⟩])).1 = .ok report := by
  have hm : beside.matrix.Consistent := (Matrix.Consistent.empty 3).setAll ..
  have hwf : beside.checkWellFormed = .ok () := by decide +kernel
  have hone : beside.activeBots = [founder] := by decide +kernel
  have hfoot := (@placement_decided beside {} founder ⟨1, 0, 1⟩ hm hwf rfl hone rfl (by decide)
    (by decide)).1
  have hlean := (@placement_decided beside {} founder ⟨0, 1, 1⟩ hm hwf rfl hone rfl (by decide)
    (by decide)).2
  refine ⟨hm, hwf, hone, ?_, ?_⟩
  · rw [hfoot CommandList (CommandList.ofList [.void ⟨1, 0, 1⟩]) ⟨[], 1⟩ rfl]
    decide +kernel
  · rw [hlean CommandList (CommandList.ofList [.fill ⟨0, 1, 1⟩]) ⟨[], 1⟩ rfl]
    decide +kernel

end State

end VoxelSwarm
