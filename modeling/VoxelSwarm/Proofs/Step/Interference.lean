import VoxelSwarm.Proofs.Step.Legal

/-!
# The first clash

Which interference is reported when footprints meet. At any time the table of claims tells of each
voxel which of the bots so far claims it (`getElem?_of_claimAll`). The scan ends at the first bot
whose footprint meets an earlier one, at the first voxel where it does (`FirstClash`), and bots in
ascending order have one such clash at most (`FirstClash.unique`). A bot that comes to its own voxel
again, as on a bent path that turns back, is in nobody's way.
-/

namespace VoxelSwarm

namespace Claims

theorem exists_split_of_claim {id : BotId} {ps : List Position} {claims : Claims}
    {clash : Interference} (h : claim id ps claims = .error clash) :
    clash.second = id ∧ clash.first ≠ id ∧ claims[clash.position]? = some clash.first ∧
      ∃ before after, ps = before ++ clash.position :: after ∧
        ∀ p ∈ before, ∀ other, claims[p]? = some other → other = id := by
  induction ps generalizing claims with
  | nil => cases h
  | cons q ps ih =>
    unfold claim at h
    split at h
    · next hnone =>
      obtain ⟨hsecond, hfirst, hclaimed, before, after, rfl, hbefore⟩ := ih h
      -- what the bot has just claimed is not another one's
      have hne : q ≠ clash.position := by
        rintro rfl
        rw [Std.HashMap.getElem?_insert_self] at hclaimed
        exact hfirst (Option.some.inj hclaimed).symm
      rw [Std.HashMap.getElem?_insert, if_neg (by simpa using hne)] at hclaimed
      refine ⟨hsecond, hfirst, hclaimed, q :: before, after, rfl, fun p hp other hother => ?_⟩
      have hold : q ≠ p := by
        rintro rfl
        exact nomatch hnone.symm.trans hother
      rcases List.mem_cons.1 hp with rfl | hp
      · exact absurd rfl hold
      · refine hbefore p hp other ?_
        rwa [Std.HashMap.getElem?_insert, if_neg (by simpa using hold)]
    · next other hother =>
      split at h
      · next hid =>
        obtain ⟨hsecond, hfirst, hclaimed, before, after, rfl, hbefore⟩ := ih h
        refine ⟨hsecond, hfirst, hclaimed, q :: before, after, rfl, fun p hp other' hother' => ?_⟩
        rcases List.mem_cons.1 hp with rfl | hp
        · exact (Option.some.inj (hother.symm.trans hother')).symm.trans hid
        · exact hbefore p hp other' hother'
      · next hid =>
        obtain rfl := Except.error.inj h
        exact ⟨rfl, hid, hother, [], ps, rfl, by simp⟩

end Claims

namespace State

variable {s : State} {plan : Plan} {ids : List BotId} {claims table : Claims}
  {clash clash' : Interference}

/-! ## The table -/

/-- Each voxel has the bot that claims it, or whom it had before. -/
theorem getElem?_of_claimAll (hnodup : ids.Nodup) (h : s.claimAll plan ids claims = .ok table)
    (p : Position) :
    table[p]? = (ids.find? fun i => p ∈ s.claimed plan i).or claims[p]? := by
  induction ids generalizing claims with
  | nil =>
    obtain rfl := Except.ok.inj h
    rfl
  | cons id ids ih =>
    have hapart := (List.pairwise_cons.1 ((exists_claimAll_iff hnodup).1 ⟨table, h⟩).2).1
    rw [claimAll_cons] at h
    cases hclaim : Claims.claim id (s.claimed plan id) claims with
    | error e => simp [hclaim, Except.bind] at h
    | ok claims' =>
      rw [hclaim] at h
      rw [ih (List.nodup_cons.1 hnodup).2 h, Claims.getElem?_of_claim hclaim]
      by_cases hp : p ∈ s.claimed plan id
      · have hnone : (ids.find? fun i => p ∈ s.claimed plan i) = none :=
          List.find?_eq_none.2 fun j hj hpj => hapart j hj p hp (by simpa using hpj)
        simp [hp, hnone]
      · simp [hp]

theorem exists_split_of_claimAll (h : s.claimAll plan ids claims = .error clash) :
    ∃ earlier later table, ids = earlier ++ clash.second :: later ∧
      s.claimAll plan earlier claims = .ok table ∧
      Claims.claim clash.second (s.claimed plan clash.second) table = .error clash := by
  induction ids generalizing claims with
  | nil => cases h
  | cons id ids ih =>
    rw [claimAll_cons] at h
    cases hclaim : Claims.claim id (s.claimed plan id) claims with
    | error e =>
      rw [hclaim] at h
      obtain rfl : e = clash := Except.error.inj h
      obtain ⟨rfl, -⟩ := Claims.exists_split_of_claim hclaim
      exact ⟨[], ids, claims, rfl, rfl, hclaim⟩
    | ok claims' =>
      rw [hclaim] at h
      obtain ⟨earlier, later, table, rfl, hearlier, hlast⟩ := ih h
      refine ⟨id :: earlier, later, table, rfl, ?_, hlast⟩
      rw [claimAll_cons, hclaim]
      exact hearlier

/-! ## The clash -/

/-- The clash of the lowest bot whose footprint meets that of a lower one. It is at the first voxel
of the footprint that a lower bot claims, and with the only one that does. -/
structure FirstClash (s : State) (plan : Plan) (ids : List BotId) (clash : Interference) :
    Prop where
  first_mem : clash.first ∈ ids
  second_mem : clash.second ∈ ids
  below : clash.first.index < clash.second.index
  lowest : ∀ j ∈ ids, j.index < clash.second.index → ∀ i ∈ ids, i.index < j.index →
    List.Disjoint (s.claimed plan i) (s.claimed plan j)
  earliest : ∃ before after, s.claimed plan clash.second = before ++ clash.position :: after ∧
    ∀ p ∈ before, ∀ i ∈ ids, i.index < clash.second.index → p ∉ s.claimed plan i
  shared : clash.position ∈ s.claimed plan clash.first
  only : ∀ i ∈ ids, i.index < clash.second.index → clash.position ∈ s.claimed plan i →
    i = clash.first

namespace FirstClash

theorem position_mem (h : s.FirstClash plan ids clash) :
    clash.position ∈ s.claimed plan clash.second := by
  obtain ⟨before, after, heq, -⟩ := h.earliest
  simp [heq]

theorem second_le (h : s.FirstClash plan ids clash) (h' : s.FirstClash plan ids clash') :
    clash.second.index ≤ clash'.second.index := by
  by_contra hlt
  exact h.lowest _ h'.second_mem (by omega) _ h'.first_mem h'.below h'.shared h'.position_mem

theorem unique (h : s.FirstClash plan ids clash) (h' : s.FirstClash plan ids clash') :
    clash = clash' := by
  have hsecond : clash.second = clash'.second :=
    BotId.index_inj.1 (Nat.le_antisymm (h.second_le h') (h'.second_le h))
  have hposition : clash.position = clash'.position := by
    obtain ⟨before, after, heq, hbefore⟩ := h.earliest
    obtain ⟨before', after', heq', hbefore'⟩ := h'.earliest
    rw [← hsecond] at heq' hbefore'
    -- the footprint is cut at either voxel, and no cut is within the part before the other
    have hcuts := List.append_eq_append_iff.1 (heq.symm.trans heq')
    rcases hcuts with ⟨mid, hmid, hrest⟩ | ⟨mid, hmid, hrest⟩
    · cases mid with
      | nil => exact (List.cons.inj hrest).1
      | cons p mid =>
        obtain rfl : clash.position = p := (List.cons.inj hrest).1
        exact absurd h.shared (hbefore' _ (by simp [hmid]) _ h.first_mem h.below)
    · cases mid with
      | nil => exact (List.cons.inj hrest).1.symm
      | cons p mid =>
        obtain rfl : clash'.position = p := (List.cons.inj hrest).1
        exact absurd h'.shared (hbefore _ (by simp [hmid]) _ h'.first_mem (hsecond ▸ h'.below))
  have hfirst : clash.first = clash'.first :=
    h'.only _ h.first_mem (hsecond ▸ h.below) (hposition ▸ h.shared)
  cases clash
  cases clash'
  simp_all

end FirstClash

theorem mem_earlier_iff {earlier later : List BotId} {i j : BotId}
    (hids : (earlier ++ j :: later).Pairwise fun i j => i.index < j.index) :
    i ∈ earlier ↔ i ∈ earlier ++ j :: later ∧ i.index < j.index := by
  obtain ⟨-, hlater, hearlier⟩ := List.pairwise_append.1 hids
  constructor
  · exact fun hi => ⟨List.mem_append_left _ hi, hearlier i hi j List.mem_cons_self⟩
  · rintro ⟨hi, hlt⟩
    rcases List.mem_append.1 hi with hi | hi
    · exact hi
    · rcases List.mem_cons.1 hi with rfl | hi
      · exact absurd hlt (Nat.lt_irrefl _)
      · exact absurd hlt (Nat.lt_asymm ((List.pairwise_cons.1 hlater).1 i hi))

theorem nodup_of_ascending (hids : ids.Pairwise fun i j => i.index < j.index) : ids.Nodup :=
  hids.imp fun hlt heq => Nat.ne_of_lt hlt (congrArg BotId.index heq)

theorem findInterference?_eq_none_iff_disjoint (hnodup : ids.Nodup) :
    s.findInterference? plan ids = none ↔
      ∀ i ∈ ids, ∀ j ∈ ids, i ≠ j → List.Disjoint (s.claimed plan i) (s.claimed plan j) := by
  rw [findInterference?_eq_none_iff hnodup]
  constructor
  · intro hpairs
    have : Std.Symm fun i j => ∀ p ∈ s.claimed plan i, p ∉ s.claimed plan j :=
      ⟨fun _ _ hij p hp hp' => hij p hp' hp⟩
    exact fun i hi j hj hne p hp => hpairs.forall hi hj hne p hp
  · intro hall
    exact hnodup.pairwise_of_forall_ne fun i hi j hj hne _ hp => hall i hi j hj hne hp

theorem firstClash_of_findInterference? (hids : ids.Pairwise fun i j => i.index < j.index)
    (h : s.findInterference? plan ids = some clash) : s.FirstClash plan ids clash := by
  have hall : s.claimAll plan ids ∅ = .error clash := by
    rw [findInterference?] at h
    split at h
    · cases h
    · next hclash => rw [hclash, Option.some.inj h]
  obtain ⟨earlier, later, table, rfl, hearlier, hlast⟩ := exists_split_of_claimAll hall
  have hnodup : earlier.Nodup := (List.nodup_append.1 (nodup_of_ascending hids)).1
  have hnone : s.findInterference? plan earlier = none := by rw [findInterference?, hearlier]
  have hapart := (findInterference?_eq_none_iff_disjoint hnodup).1 hnone
  have htable (p : Position) : table[p]? = earlier.find? fun i => p ∈ s.claimed plan i := by
    rw [getElem?_of_claimAll hnodup hearlier, Std.HashMap.getElem?_empty, Option.or_none]
  obtain ⟨-, hne, hfirst, before, after, heq, hbefore⟩ := Claims.exists_split_of_claim hlast
  rw [htable] at hfirst
  have hmem := List.mem_of_find?_eq_some hfirst
  have hshared : clash.position ∈ s.claimed plan clash.first := by
    simpa using List.find?_some hfirst
  refine ⟨List.mem_append_left _ hmem, by simp, ((mem_earlier_iff hids).1 hmem).2,
    fun j hj hlt i hi hij => ?_, ⟨before, after, heq, fun p hp i hi hlt hpi => ?_⟩, hshared,
    fun i hi hlt hpi => ?_⟩
  · have hj := (mem_earlier_iff hids).2 ⟨hj, hlt⟩
    have hi := (mem_earlier_iff hids).2 ⟨hi, Nat.lt_trans hij hlt⟩
    exact hapart i hi j hj fun heq => Nat.ne_of_lt hij (congrArg BotId.index heq)
  · -- a voxel before the clash is nobody's
    have hi := (mem_earlier_iff hids).2 ⟨hi, hlt⟩
    cases hfind : earlier.find? fun i => p ∈ s.claimed plan i with
    | none => exact List.find?_eq_none.1 hfind i hi (by simpa using hpi)
    | some other =>
      have hother := ((mem_earlier_iff hids).1 (List.mem_of_find?_eq_some hfind)).2
      rw [hbefore p hp other ((htable p).trans hfind)] at hother
      exact Nat.lt_irrefl _ hother
  · by_contra hdiffers
    exact hapart i ((mem_earlier_iff hids).2 ⟨hi, hlt⟩) _ hmem hdiffers hpi hshared

theorem findInterference?_eq_some_iff (hids : ids.Pairwise fun i j => i.index < j.index) :
    s.findInterference? plan ids = some clash ↔ s.FirstClash plan ids clash := by
  refine ⟨firstClash_of_findInterference? hids, fun h => ?_⟩
  cases hfind : s.findInterference? plan ids with
  | none =>
    have hapart := (findInterference?_eq_none_iff_disjoint (nodup_of_ascending hids)).1 hfind
    have hne : clash.first ≠ clash.second := fun heq =>
      Nat.ne_of_lt h.below (congrArg BotId.index heq)
    exact absurd h.position_mem (hapart _ h.first_mem _ h.second_mem hne h.shared)
  | some other => rw [(firstClash_of_findInterference? hids hfind).unique h]

/-- The footprints pass when no two bots claim one voxel, and else the first clash is reported. A
bot on its own always passes, however often its footprint comes to one voxel. -/
theorem checkFootprints_exact (hids : ids.Pairwise fun i j => i.index < j.index) :
    (s.checkFootprints plan ids = .ok () ↔
        ∀ i ∈ ids, ∀ j ∈ ids, i ≠ j → List.Disjoint (s.claimed plan i) (s.claimed plan j)) ∧
      (∀ cause, s.checkFootprints plan ids = .error cause ↔
        ∃ clash, cause = .interference clash ∧ s.FirstClash plan ids clash) ∧
      ∀ id, s.checkFootprints plan [id] = .ok () := by
  refine ⟨?_, fun cause => ?_, fun id => ?_⟩
  · rw [checkFootprints_eq_ok_iff_none,
      findInterference?_eq_none_iff_disjoint (nodup_of_ascending hids)]
  · have hclash (clash : Interference) :
        s.findInterference? plan ids = some clash ↔ s.FirstClash plan ids clash :=
      findInterference?_eq_some_iff hids
    simp only [← hclash]
    rw [checkFootprints]
    split
    · next found heq => simp [heq, eq_comm]
    · next heq => simp [heq]
  · rw [checkFootprints_eq_ok_iff_none,
      findInterference?_eq_none_iff_disjoint (List.nodup_singleton id)]
    intro i hi j hj hne
    exact absurd ((List.mem_singleton.1 hi).trans (List.mem_singleton.1 hj).symm) hne

/-- One bot fills a voxel on the way of another, which comes back to where it has been. -/
def retracing : Plan :=
  (Plan.empty.assign ⟨1⟩ (.fill ⟨0, 1, 0⟩)).assign ⟨4⟩ (.lmove ⟨0, 0, -2⟩ ⟨0, 0, 1⟩)

theorem checkFootprints_retracing :
    crew.checkFootprints retracing [⟨1⟩, ⟨4⟩] =
        .error (.interference ⟨⟨0, 1, 0⟩, ⟨1⟩, ⟨4⟩⟩) ∧
      crew.checkFootprints retracing [⟨4⟩] = .ok () ∧
      ¬(crew.claimed retracing ⟨4⟩).Nodup := by
  have hids : [BotId.mk 1, ⟨4⟩].Pairwise fun i j => i.index < j.index := by decide
  have hexact := @checkFootprints_exact crew retracing _ hids
  have hlowest : ∀ j ∈ [BotId.mk 1, ⟨4⟩], j.index < 4 → ∀ i ∈ [BotId.mk 1, ⟨4⟩],
      ¬i.index < j.index := by decide
  refine ⟨(hexact.2.1 _).2 ⟨_, rfl, ?_⟩, hexact.2.2 _, by decide +kernel⟩
  exact {
    first_mem := by decide
    second_mem := by decide
    below := by decide
    lowest := fun j hj hlt i hi hij => absurd hij (hlowest j hj hlt i hi)
    earliest := ⟨[⟨0, 1, 2⟩, ⟨0, 1, 1⟩], [⟨0, 1, 1⟩], by decide +kernel, by decide +kernel⟩
    shared := by decide +kernel
    only := by decide +kernel }

end State

end VoxelSwarm
