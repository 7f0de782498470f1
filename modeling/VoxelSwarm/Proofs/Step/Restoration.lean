import VoxelSwarm.Proofs.Step.SeedOrder

/-!
# Splitting and fusing again

A bot that splits while all others wait, and takes its child back in the next step, has the swarm as
it was: `fission_fusion_restores`. What the child takes with it is the front of a list in ascending
order, so that sorting what comes back gives the list again, whatever part the child had
(`Bot.absorb_split`).

`SplitInto` tells what the first step leaves, and all that the second one needs is read off it: the
two bots find each other, and since everybody stands where it stands, nobody is in the way.
-/

namespace VoxelSwarm

/-- A bot with this command does nothing in its turn: it waits, or another one absorbs it. -/
def Command.Idle : Command → Prop
  | .wait | .fusionS _ => True
  | _ => False

/-- A bot with this command claims no more than the voxel where it stands. -/
def Command.Staying : Command → Prop
  | .wait | .fusionP _ | .fusionS _ => True
  | _ => False

theorem Displacement.Near.neg {nd : Displacement} (h : nd.Near) : (-nd).Near := by
  simpa only [Near, clen, mlen, neg_dx, neg_dy, neg_dz, Int.natAbs_neg] using h

theorem Position.add_add_neg (p : Position) (d : Displacement) : p + d + -d = p := by
  ext <;> simp

namespace Bot

variable {b : Bot} {child : BotId} {handed own seeds : List BotId}

theorem sortSeeds_eq_of_perm {seeds' : List BotId}
    (hascending : seeds.Pairwise fun x y => x.index < y.index) (hperm : seeds'.Perm seeds) :
    sortSeeds seeds' = seeds := by
  refine ((List.mergeSort_perm ..).trans hperm).eq_of_pairwise (fun x y _ _ hxy hyx => ?_)
    (pairwise_sortSeeds seeds') (hascending.imp Nat.le_of_lt)
  exact BotId.index_inj.1 (Nat.le_antisymm hxy hyx)

/-- A bot that takes back what it has given away holds what it held. -/
theorem absorb_split (h : b.Ascending) (hseeds : b.seeds = child :: (handed ++ own)) :
    ({ b with seeds := own } : Bot).absorb child (sortSeeds handed) = b := by
  have hperm : (own ++ child :: sortSeeds handed).Perm b.seeds := by
    rw [hseeds]
    refine List.perm_middle.trans (List.Perm.cons child ?_)
    exact List.perm_append_comm.trans ((List.mergeSort_perm ..).append_right own)
  rw [absorb, sortSeeds_eq_of_perm h hperm]

end Bot

namespace State

variable {s t u : State} {rules : Rules} {plan plan' : Plan} {b x : Bot} {nd : Displacement}
  {m : UInt8} {ids : List BotId} {id child : BotId} {c : Command} {report : StepReport}
  {handed own : List BotId}

/-! ## One bot acts -/

theorem foldl_executeBot_idle (hidle : ∀ id ∈ ids, ∃ c, plan.command? id = some c ∧ c.Idle)
    (after : State × Bool) : ids.foldl (executeBot plan) after = after := by
  induction ids with
  | nil => rfl
  | cons id ids ih =>
    obtain ⟨⟨c, hc, hidle⟩, hrest⟩ := List.forall_mem_cons.1 hidle
    have hturn : executeBot plan after id = after := by
      obtain ⟨s, earlier⟩ := after
      rw [executeBot, hc]
      cases c with
      | wait | fusionS nd => simp only [execute, Bool.or_false]
      | _ => exact False.elim hidle
    rw [List.foldl_cons, hturn, ih hrest]

theorem executeAll_eq_execute (hnodup : ids.Nodup) (hid : id ∈ ids)
    (hc : plan.command? id = some c)
    (hidle : ∀ k ∈ ids, k ≠ id → ∃ c, plan.command? k = some c ∧ c.Idle) :
    s.executeAll plan ids = (s.charge (Energy.passive s ids.length)).execute plan id c := by
  obtain ⟨before, after, rfl⟩ := List.append_of_mem hid
  obtain ⟨hfresh, -⟩ := List.nodup_cons.1 (List.nodup_middle.1 hnodup)
  have hrest : ∀ k ∈ before ++ after, ∃ c, plan.command? k = some c ∧ c.Idle := by
    intro k hk
    refine hidle k ?_ fun heq => hfresh (heq ▸ hk)
    exact List.mem_append.2 ((List.mem_append.1 hk).imp_right (List.mem_cons_of_mem _))
  have hbefore : ∀ state, before.foldl (executeBot plan) state = state :=
    foldl_executeBot_idle fun k hk => hrest k (List.mem_append_left _ hk)
  have hafter : ∀ state, after.foldl (executeBot plan) state = state :=
    foldl_executeBot_idle fun k hk => hrest k (List.mem_append_right _ hk)
  rw [executeAll, List.foldl_append, hbefore, List.foldl_cons, hafter, executeBot, hc]
  simp only [Bool.false_or]

theorem Seated.claimed_of_staying (hs : s.Seated) (hb : b ∈ s.activeBots)
    (hc : plan.command? b.id = some c) (hstays : c.Staying) :
    s.claimed plan b.id = [b.position] := by
  rw [claimed_eq hc]
  cases c <;> simp_all [footprint, Command.Staying, hs.positionOf_eq hb]

theorem Seated.activeBots_ext (hs : s.Seated) (ht : t.Seated)
    (h : ∀ x, x ∈ s.activeBots ↔ x ∈ t.activeBots) : s.activeBots = t.activeBots := by
  have hperm := (List.perm_ext_iff_of_nodup hs.nodup_activeBots ht.nodup_activeBots).2 h
  exact hperm.eq_of_pairwise (fun x y _ _ hxy hyx => absurd hxy (Nat.lt_asymm hyx))
    hs.ascending_activeBots ht.ascending_activeBots

/-! ## The first step -/

/-- One bot splits and all others wait. -/
structure Splits (s : State) (plan : Plan) (b : Bot) (nd : Displacement) (m : UInt8) : Prop where
  mem : b ∈ s.activeBots
  splits : plan.command? b.id = some (.fission nd m)
  others : ∀ k ∈ s.activeIds, k ≠ b.id → plan.command? k = some .wait

/-- The swarm after a bot has split: it has kept the seeds of `own`, and its child has become active
next to it with those of `handed`. -/
structure SplitInto (s t : State) (b : Bot) (nd : Displacement) (child : BotId)
    (handed own : List BotId) : Prop where
  seeds : b.seeds = child :: (handed ++ own)
  parent_slot : t.bot? b.id = some { b with seeds := own }
  child_slot : t.bot? child = some (Bot.activeAt child (b.position + nd) handed)
  kept : ∀ k, k ≠ b.id → k ≠ child → t.bot? k = s.bot? k
  matrix : t.matrix = s.matrix
  target : t.target = s.target
  harmonics : t.harmonics = s.harmonics
  halted : t.halted = s.halted
  energy : t.energy = s.energy + Energy.passive s s.activeCount + Energy.spawn

theorem Completes.splitInto (h : s.Completes rules plan report t) (hs : s.Arranged)
    (hsplits : s.Splits plan b nd m) : ∃ child handed own, s.SplitInto t b nd child handed own := by
  have hb := hsplits.mem
  obtain ⟨child, rest, hseeds, -, hsplit⟩ := (h.legal hs.toSeated).handOver_eq hb hsplits.splits
  have hmem : child ∈ b.seeds := by simp [hseeds]
  have hne : b.id ≠ child := fun heq => hs.id_not_mem_seeds hb hb (heq ▸ hmem)
  obtain ⟨old, hold, -⟩ := hs.inactive_of_seed hb hmem
  have hcharge := fun k => (alike_charge s (Energy.passive s s.activeCount)).bot? k
  have hslot := (hcharge b.id).trans (hs.bot?_of_mem hb)
  have hcount : s.activeIds.length = s.activeCount := List.length_map _
  -- the others wait, so the step is the turn of the bot that splits
  have hstep : t = ((((s.charge (Energy.passive s s.activeCount)).updateBot b.id
      fun _ => { b with seeds := rest.drop m.toNat }).updateBot child
      fun _ => Bot.activeAt child (b.position + nd) (rest.take m.toNat)).charge Energy.spawn) := by
    have hturn := @executeAll_eq_execute s plan s.activeIds b.id _ hs.nodup_activeIds
      (List.mem_map_of_mem hb) hsplits.splits
      fun k hk hkb => ⟨.wait, hsplits.others k hk hkb, trivial⟩
    have hposition : (s.charge (Energy.passive s s.activeCount)).positionOf b.id = b.position :=
      hs.positionOf_eq hb
    rw [← (resolveStep_eq_ok_iff.1 h.resolves).2.1, hturn, hcount]
    simp only [execute, hposition, spawn, hslot, Option.bind_some, hsplit, install, Bot.activeAt]
  subst hstep
  refine ⟨child, rest.take m.toNat, rest.drop m.toNat, ?_, ?_, ?_, ?_, rfl, rfl, rfl, rfl, rfl⟩
  · rw [hseeds, List.take_append_drop]
  · rw [(alike_charge _ _).bot?, bot?_updateBot_of_ne hne.symm, bot?_updateBot_self hslot]
  · rw [(alike_charge _ _).bot?, bot?_updateBot_self]
    rw [bot?_updateBot_of_ne hne, hcharge, hold]
  · intro k hkb hkc
    rw [(alike_charge _ _).bot?, bot?_updateBot_of_ne hkc.symm, bot?_updateBot_of_ne hkb.symm,
      hcharge]

/-! ## The second step -/

/-- A bot and its child fuse, and all others wait. -/
structure Fuses (t : State) (plan : Plan) (id child : BotId) (nd : Displacement) : Prop where
  covers : plan.Covers t
  absorbs : plan.command? id = some (.fusionP nd)
  absorbed : plan.command? child = some (.fusionS (-nd))
  others : ∀ k ∈ t.activeIds, k ≠ id → k ≠ child → plan.command? k = some .wait

/-- The state after the second step. -/
def fused (t : State) (b : Bot) (child : BotId) (handed : List BotId) : State :=
  (((t.charge (Energy.passive t t.activeCount)).updateBot child Bot.retire).updateBot b.id fun x =>
    x.absorb child (Bot.sortSeeds handed)).charge (-Energy.spawn)

namespace SplitInto

theorem child_mem_seeds (h : s.SplitInto t b nd child handed own) : child ∈ b.seeds := by
  simp [h.seeds]

section

variable (h : s.SplitInto t b nd child handed own) (hs : s.Arranged) (hb : b ∈ s.activeBots)
include h hs hb

theorem id_ne_child : b.id ≠ child := fun heq => hs.id_not_mem_seeds hb hb (heq ▸ h.child_mem_seeds)

theorem child_not_active : child ∉ s.activeIds := by
  intro hmem
  obtain ⟨other, hother, hid⟩ := List.mem_map.1 hmem
  exact hs.id_not_mem_seeds hother hb (hid ▸ h.child_mem_seeds)

/-- The active bots are the child and those that were there, one of them with fewer seeds. -/
theorem mem_activeBots_iff (ht : t.Seated) : x ∈ t.activeBots ↔
    x = { b with seeds := own } ∨ x = Bot.activeAt child (b.position + nd) handed ∨
      x ∈ s.activeBots ∧ x.id ≠ b.id := by
  have hactive := (hs.mem_activeBots.1 hb).2
  have hne := h.id_ne_child hs hb
  constructor
  · intro hx
    obtain ⟨hslot, hx'⟩ := ht.mem_activeBots.1 hx
    by_cases hxb : x.id = b.id
    · rw [hxb, h.parent_slot] at hslot
      exact .inl (Option.some.inj hslot).symm
    · by_cases hxc : x.id = child
      · rw [hxc, h.child_slot] at hslot
        exact .inr (.inl (Option.some.inj hslot).symm)
      · rw [h.kept _ hxb hxc] at hslot
        exact .inr (.inr ⟨hs.mem_activeBots.2 ⟨hslot, hx'⟩, hxb⟩)
  · rintro (rfl | rfl | ⟨hx, hxb⟩)
    · exact ht.mem_of_bot? h.parent_slot hactive
    · exact ht.mem_of_bot? h.child_slot rfl
    · obtain ⟨hslot, hx'⟩ := hs.mem_activeBots.1 hx
      have hxc : x.id ≠ child := by
        rintro rfl
        exact h.child_not_active hs hb (List.mem_map_of_mem hx)
      exact ht.mem_of_bot? ((h.kept _ hxb hxc).trans hslot) hx'

theorem new_iff (ht : t.Seated) {k : BotId} : k ∈ t.activeIds ∧ k ∉ s.activeIds ↔ k = child := by
  constructor
  · rintro ⟨hk, hnew⟩
    obtain ⟨x, hx, rfl⟩ := List.mem_map.1 hk
    rcases (h.mem_activeBots_iff hs hb ht).1 hx with rfl | rfl | ⟨hx, -⟩
    · exact absurd (List.mem_map_of_mem (f := (·.id)) hb) hnew
    · rfl
    · exact absurd (List.mem_map_of_mem hx) hnew
  · rintro rfl
    exact ⟨List.mem_map_of_mem (ht.mem_of_bot? h.child_slot rfl), h.child_not_active hs hb⟩

theorem command_cases (hfuses : t.Fuses plan' b.id child nd) (ht : t.Seated)
    (hx : x ∈ t.activeBots) :
    (x = { b with seeds := own } ∧ plan'.command? x.id = some (.fusionP nd)) ∨
      (x = Bot.activeAt child (b.position + nd) handed ∧
        plan'.command? x.id = some (.fusionS (-nd))) ∨
      plan'.command? x.id = some .wait := by
  rcases (h.mem_activeBots_iff hs hb ht).1 hx with rfl | rfl | ⟨hold, hxb⟩
  · exact .inl ⟨rfl, hfuses.absorbs⟩
  · exact .inr (.inl ⟨rfl, hfuses.absorbed⟩)
  · refine .inr (.inr (hfuses.others _ (List.mem_map_of_mem hx) hxb ?_))
    rintro rfl
    exact h.child_not_active hs hb (List.mem_map_of_mem hold)

theorem bot?_fused (hascending : b.Ascending) {k : BotId} :
    (fused t b child handed).bot? k =
      if k = b.id then some b
      else if k = child then some (Bot.activeAt child (b.position + nd) handed).retire
      else s.bot? k := by
  have hne := h.id_ne_child hs hb
  have hcharge := fun k => (alike_charge t (Energy.passive t t.activeCount)).bot? k
  have hparent := (hcharge b.id).trans h.parent_slot
  have hchild := (hcharge child).trans h.child_slot
  rw [fused, (alike_charge _ _).bot?]
  by_cases hkb : k = b.id
  · subst hkb
    rw [if_pos rfl, bot?_updateBot_self ((bot?_updateBot_of_ne hne.symm).trans hparent),
      Bot.absorb_split hascending h.seeds]
  · rw [if_neg hkb, bot?_updateBot_of_ne (Ne.symm hkb)]
    by_cases hkc : k = child
    · subst hkc
      rw [if_pos rfl, bot?_updateBot_self hchild]
    · rw [if_neg hkc, bot?_updateBot_of_ne (Ne.symm hkc), hcharge, h.kept k hkb hkc]

theorem activeBots_fused (hascending : b.Ascending) (hu : (fused t b child handed).Seated) :
    (fused t b child handed).activeBots = s.activeBots := by
  refine hu.activeBots_ext hs.toSeated fun x => ?_
  rw [hu.mem_activeBots, hs.mem_activeBots, h.bot?_fused hs hb hascending]
  refine and_congr_left fun hactive => ?_
  by_cases hxb : x.id = b.id
  · rw [if_pos hxb, hxb, hs.bot?_of_mem hb]
  · rw [if_neg hxb]
    by_cases hxc : x.id = child
    · -- the slot of the child is not active before or after
      rw [if_pos hxc]
      constructor
      · intro heq
        rw [← Option.some.inj heq] at hactive
        cases hactive
      · intro hslot
        exact absurd (hs.mem_activeIds.2 ⟨x, hxc ▸ hslot, hactive⟩) (h.child_not_active hs hb)
    · rw [if_neg hxc]

end

theorem pairs (hfuses : t.Fuses plan' b.id child nd) :
    plan'.Pairs { b with seeds := own } (Bot.activeAt child (b.position + nd) handed) :=
  ⟨⟨nd, hfuses.absorbs, rfl⟩, -nd, hfuses.absorbed, (Position.add_add_neg b.position nd).symm⟩

theorem legal (h : s.SplitInto t b nd child handed own) (hs : s.Arranged) (ht : t.Arranged)
    (hl : s.Legal rules plan) (hsplits : s.Splits plan b nd m) (hin : s.matrix.Holds b.position)
    (hfuses : t.Fuses plan' b.id child nd) : t.Legal rules plan' := by
  have hb := hsplits.mem
  have hnear : nd.Near := hl.valid b hb _ hsplits.splits (.near, nd) (by simp [Command.arguments])
  obtain ⟨⟨hholds, -⟩, -⟩ := hl.permits b hb _ hsplits.splits
  have hpairs : plan'.Pairs { b with seeds := own }
      (Bot.activeAt child (b.position + nd) handed) := pairs hfuses
  have hparent := (h.mem_activeBots_iff hs hb ht.toSeated).2 (.inl rfl)
  have hchild := (h.mem_activeBots_iff hs hb ht.toSeated).2 (.inr (.inl rfl))
  have hclaims : ∀ x ∈ t.activeBots, t.claimed plan' x.id = [x.position] := by
    intro x hx
    rcases h.command_cases hs hb hfuses ht.toSeated hx with ⟨-, hc⟩ | ⟨-, hc⟩ | hc
    all_goals exact ht.claimed_of_staying hx hc trivial
  refine ⟨hfuses.covers, fun x hx c hc => ?_, fun x hx c hc => ?_, fun x hx x' hx' hne p hp => ?_⟩
  · rcases h.command_cases hs hb hfuses ht.toSeated hx with ⟨-, hc'⟩ | ⟨-, hc'⟩ | hc'
    all_goals obtain rfl := Option.some.inj (hc.symm.trans hc')
    · simpa [Command.Valid, Command.arguments, DisplacementClass.Admits] using hnear
    · simpa [Command.Valid, Command.arguments, DisplacementClass.Admits] using hnear.neg
    · simp [Command.Valid, Command.arguments]
  · rcases h.command_cases hs hb hfuses ht.toSeated hx with ⟨rfl, hc'⟩ | ⟨rfl, hc'⟩ | hc'
    all_goals obtain rfl := Option.some.inj (hc.symm.trans hc')
    · exact ⟨h.matrix ▸ hholds, _, hchild, hpairs⟩
    · refine ⟨?_, _, hparent, hpairs⟩
      rw [h.matrix, Bot.activeAt, Position.add_add_neg]
      exact hin
    · trivial
  · rw [hclaims x hx, List.mem_singleton] at hp
    rw [hclaims x' hx', List.mem_singleton, hp]
    exact fun heq => hne (ht.eq_of_position_eq hx hx' heq)

theorem executeAll_fused (h : s.SplitInto t b nd child handed own) (hs : s.Arranged)
    (hb : b ∈ s.activeBots) (ht : t.Arranged) (hl : t.Legal rules plan')
    (hfuses : t.Fuses plan' b.id child nd) :
    t.executeAll plan' t.activeIds = (fused t b child handed, false) := by
  have hparent := (h.mem_activeBots_iff hs hb ht.toSeated).2 (.inl rfl)
  have hchild := (h.mem_activeBots_iff hs hb ht.toSeated).2 (.inr (.inl rfl))
  have hidle : ∀ k ∈ t.activeIds, k ≠ b.id → ∃ c, plan'.command? k = some c ∧ c.Idle := by
    intro k hk hkb
    by_cases hkc : k = child
    · exact ⟨.fusionS (-nd), hkc ▸ hfuses.absorbed, trivial⟩
    · exact ⟨.wait, hfuses.others k hk hkb hkc, trivial⟩
  have hturn := executeAll_eq_execute (s := t) ht.nodup_activeIds
    (List.mem_map_of_mem (f := (·.id)) hparent) hfuses.absorbs hidle
  obtain ⟨c, hc, hpairs, -, hpartner⟩ := hl.exists_partner ht hparent hfuses.absorbs
  obtain rfl := pairs_right_unique ht hc hchild hpairs (pairs hfuses)
  rw [hturn, activeIds, List.length_map, ← activeCount]
  have hposition : (t.charge (Energy.passive t t.activeCount)).positionOf b.id = b.position :=
    (ht.positionOf_eq hparent :)
  have hpartner' : plan'.fusionPartner? (t.charge (Energy.passive t t.activeCount)) b.position nd
      false = some child :=
    ((alike_charge t _).fusionPartner? ..).trans hpartner
  have hslot := ((alike_charge t (Energy.passive t t.activeCount)).bot? child).trans h.child_slot
  simp only [execute, hposition, hpartner', fuse, hslot, fused, Bot.activeAt]

end SplitInto

/-- A bot that splits while all others wait can take its child back in the next step, while all
others wait again, and then everything is as it was: the matrix, the target, the harmonics, and the
active bots with their positions and seeds. The slot of the child is empty, and the two steps have
cost what they cost without any command. -/
theorem fission_fusion_restores (hwell : s.checkWellFormed = .ok ()) (hascend : s.SeedsAscend)
    (hsplits : s.Splits plan b nd m) (hstep : s.Completes rules plan report t) :
    ∃ child, (∀ k, k ∈ t.activeIds ∧ k ∉ s.activeIds ↔ k = child) ∧
      ∀ plan', t.Fuses plan' b.id child nd → ∃ report' u,
        t.Completes rules plan' report' u ∧
        u.matrix = s.matrix ∧ u.target = s.target ∧ u.harmonics = s.harmonics ∧
        u.halted = s.halted ∧ u.activeBots = s.activeBots ∧
        (∃ slot, u.bot? child = some slot ∧ slot.active = false ∧ slot.seeds = []) ∧
        u.energy = s.energy + Energy.passive s s.activeCount + Energy.passive t t.activeCount := by
  have hs := (checkWellFormed_eq_ok_iff.1 hwell).1
  have hb := hsplits.mem
  have hl := hstep.legal hs.toSeated
  obtain ⟨child, handed, own, h⟩ := hstep.splitInto hs.arranged hsplits
  have ht : t.Orderly := by
    rw [← (resolveStep_eq_ok_iff.1 hstep.resolves).2.1]
    exact hs.orderly.executeAll hl
  refine ⟨child, fun k => h.new_iff hs.arranged hb ht.seated, fun plan' hfuses => ?_⟩
  have hl' := h.legal hs.arranged ht.arranged hl hsplits (hs.inside b hb) hfuses
  have hexecute := h.executeAll_fused hs.arranged hb ht.arranged hl' hfuses
  have hu : (fused t b child handed).Orderly := by
    have hafter := ht.executeAll hl'
    rwa [hexecute] at hafter
  have hbots := h.activeBots_fused hs.arranged hb (hascend b hb) hu.seated
  have hgoes : (fused t b child handed).halted = false := by
    rw [← Bool.not_eq_true, hu.halted_iff, hbots]
    exact List.ne_nil_of_mem hb
  refine ⟨_, fused t b child handed, ⟨hfuses.covers, resolveStep_eq_ok_iff.2 ⟨?_, ?_, ?_, rfl⟩⟩,
    h.matrix, h.target, h.harmonics, h.halted, hbots, ?_, ?_⟩
  · exact (checkPlan_eq_ok_iff ht.seated hfuses.covers).2 hl'
  · rw [hexecute]
  · have hnot : (fused t b child handed).groundingDue rules t.harmonics false = false :=
      groundingDue_of_unchanged hgoes rfl
    rw [hexecute]
    exact fun hdue => nomatch hnot.symm.trans hdue
  · refine ⟨(Bot.activeAt child (b.position + nd) handed).retire, ?_, rfl, rfl⟩
    rw [h.bot?_fused hs.arranged hb (hascend b hb), if_neg (h.id_ne_child hs.arranged hb).symm,
      if_pos rfl]
  · show t.energy + Energy.passive t t.activeCount + -Energy.spawn = _
    rw [h.energy]
    omega

def splitPlan : Plan :=
  (((Plan.empty.assign ⟨1⟩ .wait).assign ⟨2⟩ .wait).assign ⟨3⟩ (.fission ⟨0, 1, 0⟩ 1)).assign ⟨4⟩
    .wait

def fusePlan : Plan :=
  ((((Plan.empty.assign ⟨1⟩ .wait).assign ⟨2⟩ .wait).assign ⟨3⟩ (.fusionP ⟨0, 1, 0⟩)).assign ⟨4⟩
    .wait).assign ⟨6⟩ (.fusionS ⟨0, -1, 0⟩)

def splitCrew : State := (crew.executeAll splitPlan crew.activeIds).1

theorem crew_splits : crew.Splits splitPlan ⟨⟨3⟩, ⟨2, 0, 0⟩, [⟨6⟩, ⟨7⟩], true⟩ ⟨0, 1, 0⟩ 1 where
  mem := by decide +kernel
  splits := by decide +kernel
  others := by decide +kernel

theorem crew_completes_splitPlan : crew.Completes {} splitPlan ⟨4, 185, false⟩ splitCrew where
  covers := by
    have hread : readPlan crew.activeIds Plan.empty
        (CommandList.ofList [.wait, .wait, .fission ⟨0, 1, 0⟩ 1, .wait]) =
        (.ok splitPlan, ⟨[], 4⟩) := by decide +kernel
    exact covers_of_readPlan crew_coherent.toSeated hread
  resolves := by
    refine resolveStep_eq_ok_iff.2 ⟨?_, rfl, fun _ => by decide +kernel, by decide +kernel⟩
    rw [checkPlan, seq_eq_ok_iff, checkFootprints_eq_ok_iff crew_coherent.toSeated]
    constructor
    · decide +kernel
    · decide +kernel

theorem splitCrew_fuses : splitCrew.Fuses fusePlan ⟨3⟩ ⟨6⟩ ⟨0, 1, 0⟩ where
  covers := by
    have hread : readPlan splitCrew.activeIds Plan.empty
        (CommandList.ofList [.wait, .wait, .fusionP ⟨0, 1, 0⟩, .wait, .fusionS ⟨0, -1, 0⟩]) =
        (.ok fusePlan, ⟨[], 5⟩) := by decide +kernel
    have hl := crew_completes_splitPlan.legal crew_coherent.toSeated
    exact covers_of_readPlan (crew_coherent.orderly.executeAll hl).seated hread
  absorbs := by decide +kernel
  absorbed := by decide +kernel
  others := by decide +kernel

theorem fission_fusion_restores_crew :
    crew.checkWellFormed = .ok () ∧ crew.SeedsAscend ∧
    crew.Splits splitPlan ⟨⟨3⟩, ⟨2, 0, 0⟩, [⟨6⟩, ⟨7⟩], true⟩ ⟨0, 1, 0⟩ 1 ∧
    crew.Completes {} splitPlan ⟨4, 185, false⟩ splitCrew ∧
    splitCrew.Fuses fusePlan ⟨3⟩ ⟨6⟩ ⟨0, 1, 0⟩ ∧
    ∃ report' u, splitCrew.Completes {} fusePlan report' u ∧ u.activeBots = crew.activeBots ∧
      u.energy = crew.energy + Energy.passive crew 4 + Energy.passive splitCrew 5 := by
  have hascend : crew.SeedsAscend := by decide +kernel
  obtain ⟨child, hnew, hrestores⟩ :=
    fission_fusion_restores crew_checkWellFormed hascend crew_splits crew_completes_splitPlan
  obtain rfl : ⟨6⟩ = child := (hnew ⟨6⟩).1 (by decide +kernel)
  obtain ⟨report', u, hcompletes, -, -, -, -, hbots, -, henergy⟩ :=
    hrestores fusePlan splitCrew_fuses
  have hcounts : crew.activeCount = 4 ∧ splitCrew.activeCount = 5 := by decide +kernel
  rw [hcounts.1, hcounts.2] at henergy
  exact ⟨crew_checkWellFormed, hascend, crew_splits, crew_completes_splitPlan, splitCrew_fuses,
    report', u, hcompletes, hbots, henergy⟩

end State

end VoxelSwarm
