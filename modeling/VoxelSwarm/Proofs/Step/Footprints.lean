import VoxelSwarm.Step.Run

/-!
# Disjoint footprints

No interference is found exactly when the footprints of any two bots are disjoint
(`findInterference?_eq_none_iff`): the table of claims always holds the voxels claimed so far, each
for the one bot that claims it.
-/

namespace VoxelSwarm

namespace Claims

theorem getElem?_of_claim {id : BotId} {ps : List Position} {claims after : Claims}
    (h : claim id ps claims = .ok after) (p : Position) :
    after[p]? = if p ∈ ps then some id else claims[p]? := by
  induction ps generalizing claims with
  | nil =>
    obtain rfl : claims = after := Except.ok.inj h
    simp
  | cons q ps ih =>
    unfold claim at h
    split at h
    · rw [ih h, Std.HashMap.getElem?_insert]
      by_cases hq : p = q
      · simp [hq]
      · simp [hq, Ne.symm hq]
    · next other hother =>
      split at h
      · next hid =>
        rw [ih h]
        by_cases hq : p = q
        · simp [hq, hother, hid]
        · simp [hq]
      · cases h

theorem exists_claim_iff {id : BotId} {ps : List Position} {claims : Claims} :
    (∃ after, claim id ps claims = .ok after) ↔
      ∀ p ∈ ps, ∀ other, claims[p]? = some other → other = id := by
  induction ps generalizing claims with
  | nil => simp [claim]
  | cons q ps ih =>
    unfold claim
    split
    · next hnone =>
      rw [ih, List.forall_mem_cons]
      constructor
      · intro h
        refine ⟨by simp [hnone], fun p hp other hother => h p hp other ?_⟩
        have hne : q ≠ p := fun hqp => by simp [← hqp, hnone] at hother
        simp [Std.HashMap.getElem?_insert, hne, hother]
      · rintro ⟨-, h⟩ p hp other hother
        rw [Std.HashMap.getElem?_insert] at hother
        split at hother
        · exact (Option.some.inj hother).symm
        · exact h p hp other hother
    · next other hother =>
      split
      · next hid =>
        rw [ih, List.forall_mem_cons, hother]
        simp [hid]
      · next hid =>
        constructor
        · rintro ⟨_, h⟩
          cases h
        · intro h
          exact absurd (h q List.mem_cons_self other hother) hid

end Claims

namespace State

variable {s : State} {plan : Plan}

/-- The voxels that a bot claims for the command that it has in a plan. -/
def claimed (s : State) (plan : Plan) (id : BotId) : List Position :=
  match plan.command? id with
  | none => []
  | some c => s.footprint plan id c

theorem claimed_eq {id : BotId} {c : Command} (h : plan.command? id = some c) :
    s.claimed plan id = s.footprint plan id c := by
  rw [claimed, h]

theorem claimAll_cons {id : BotId} {ids : List BotId} {claims : Claims} :
    s.claimAll plan (id :: ids) claims =
      (Claims.claim id (s.claimed plan id) claims).bind (s.claimAll plan ids) := by
  rw [claimAll, claimed]
  cases plan.command? id with
  | none => rfl
  | some c =>
    simp only
    cases Claims.claim id (s.footprint plan id c) claims <;> rfl

theorem exists_claimAll_iff {ids : List BotId} (hnodup : ids.Nodup) {claims : Claims} :
    (∃ after, s.claimAll plan ids claims = .ok after) ↔
      (∀ id ∈ ids, ∀ p ∈ s.claimed plan id, ∀ other, claims[p]? = some other → other = id) ∧
        ids.Pairwise fun i j => ∀ p ∈ s.claimed plan i, p ∉ s.claimed plan j := by
  induction ids generalizing claims with
  | nil => simp [claimAll]
  | cons id ids ih =>
    obtain ⟨hid, hnodup⟩ := List.nodup_cons.1 hnodup
    rw [claimAll_cons, List.forall_mem_cons, List.pairwise_cons]
    cases hclaim : Claims.claim id (s.claimed plan id) claims with
    | error e =>
      refine ⟨fun ⟨_, h⟩ => (nomatch h), fun h => ?_⟩
      obtain ⟨_, hok⟩ := Claims.exists_claim_iff.2 h.1.1
      rw [hclaim] at hok
      cases hok
    | ok table =>
      have hfirst := Claims.exists_claim_iff.1 ⟨table, hclaim⟩
      have htable := Claims.getElem?_of_claim hclaim
      refine (ih hnodup).trans ⟨fun ⟨hrest, hpairs⟩ => ?_, fun ⟨⟨_, hrest⟩, hapart, hpairs⟩ => ?_⟩
      · -- a voxel of the first bot is in the table under its name
        have hapart : ∀ j ∈ ids, ∀ p ∈ s.claimed plan id, p ∉ s.claimed plan j := by
          intro j hj p hp hpj
          have := hrest j hj p hpj id (by rw [htable, if_pos hp])
          exact hid (this ▸ hj)
        refine ⟨⟨hfirst, fun j hj p hp other hother => hrest j hj p hp other ?_⟩, hapart, hpairs⟩
        rw [htable, if_neg fun hp' => hapart j hj p hp' hp, hother]
      · refine ⟨fun j hj p hp other hother => ?_, hpairs⟩
        rw [htable, if_neg fun hp' => hapart j hj p hp' hp] at hother
        exact hrest j hj p hp other hother

theorem findInterference?_eq_none_iff {ids : List BotId} (hnodup : ids.Nodup) :
    s.findInterference? plan ids = none ↔
      ids.Pairwise fun i j => ∀ p ∈ s.claimed plan i, p ∉ s.claimed plan j := by
  have hall : (∃ after, s.claimAll plan ids ∅ = .ok after) ↔ _ := exists_claimAll_iff hnodup
  simp only [Std.HashMap.getElem?_empty, reduceCtorEq, false_implies, implies_true,
    true_and] at hall
  rw [← hall, findInterference?]
  cases s.claimAll plan ids ∅ <;> simp

end State

end VoxelSwarm
