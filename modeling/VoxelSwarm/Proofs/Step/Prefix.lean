import VoxelSwarm.Proofs.Step.Conservation

/-!
# Plans known in part

A command that is offered before the plan is complete is judged after those that are known already
(`Accepts`). What the checks of a step accept at once is accepted so, command by command
(`acceptsAll_of_checkPlan`), and a plan accepted command by command fails the checks of the step
only for causes that the whole plan shows (`deferred_of_checkPlan`).

The box of a group belongs to the member that leads it, and the leader is looked for among the
commands known so far. Footprints are final all the same (`claimed_ofPairs_append`): the leader is
the first member, so for a bot whose command is known it is among the bots whose commands are known.
-/

namespace VoxelSwarm

/-- The causes that only the whole plan shows. -/
def PreconditionError.Shared : PreconditionError → Prop
  | .noFusionPartner _ | .incompleteGroup .. | .sharedCorner _ => True
  | _ => False

/-- The causes for which a step fails although each of its commands was staged. -/
def StepError.Deferred : StepError → Prop
  | .precondition _ _ cause => cause.Shared
  | .ungrounded _ => True
  | _ => False

/-! ## Plans that are put together bot by bot -/

namespace Plan

/-- The plan that gives commands to bots in turn. -/
def ofPairs (ps : List (BotId × Command)) : Plan :=
  ps.foldl (fun plan x => plan.assign x.1 x.2) empty

structure Distinct (ps : List (BotId × Command)) : Prop where
  nodup : (ps.map (·.1)).Nodup
  slots : ∀ x ∈ ps, x.1.index < botSlots

variable {ps qs : List (BotId × Command)} {x : BotId × Command} {id : BotId} {c : Command}

theorem ofPairs_concat (ps : List (BotId × Command)) (x : BotId × Command) :
    ofPairs (ps ++ [x]) = (ofPairs ps).assign x.1 x.2 := by
  simp [ofPairs]

theorem Distinct.left (h : Distinct (ps ++ qs)) : Distinct ps where
  nodup := by
    have := h.nodup
    rw [List.map_append] at this
    exact (List.nodup_append.1 this).1
  slots x hx := h.slots x (List.mem_append_left _ hx)

theorem Distinct.apart (h : Distinct (ps ++ qs)) (hid : id ∈ qs.map (·.1)) :
    id ∉ ps.map (·.1) := by
  have := h.nodup
  rw [List.map_append, List.nodup_append] at this
  exact fun hmem => this.2.2 id hmem id hid rfl

theorem Distinct.fresh (h : Distinct (ps ++ [x])) : x.1 ∉ ps.map (·.1) :=
  h.apart (by simp)

theorem Distinct.command?_ofPairs (h : Distinct ps) :
    (ofPairs ps).command? id = some c ↔ (id, c) ∈ ps := by
  induction ps using List.reverseRecOn with
  | nil => simp [ofPairs, command?_empty]
  | append_singleton ps x ih =>
    have hfresh := h.fresh
    rw [ofPairs_concat, command?_assign _ (h.slots x (by simp)), List.mem_append,
      List.mem_singleton]
    split
    · next heq =>
      subst heq
      constructor
      · rintro hc
        exact Or.inr (Prod.ext rfl (Option.some.inj hc).symm)
      · rintro (hmem | heq)
        · exact absurd (List.mem_map_of_mem hmem) hfresh
        · exact congrArg (fun y : BotId × Command => some y.2) heq.symm
    · next hne =>
      rw [ih h.left]
      refine ⟨Or.inl, fun hor => hor.resolve_right ?_⟩
      rintro rfl
      exact hne rfl

theorem Distinct.command?_eq_none (h : Distinct ps) (hid : id ∉ ps.map (·.1)) :
    (ofPairs ps).command? id = none := by
  cases hc : (ofPairs ps).command? id with
  | none => rfl
  | some c => exact absurd (List.mem_map_of_mem (h.command?_ofPairs.1 hc)) hid

theorem size_assign {plan : Plan} (hid : id.index < botSlots) (hnone : plan.command? id = none) :
    (plan.assign id c).size = plan.size + 1 := by
  have hlt : id.index < plan.commands.toList.length := by simpa using hid
  have hget : plan.commands.toList[id.index] = none := by
    simpa [command?, Vector.getElem?_eq_getElem hid] using hnone
  simp only [size, assign, Vector.toList_setIfInBounds, List.countP_set hlt, hget]
  simp

theorem Distinct.size_ofPairs (h : Distinct ps) : (ofPairs ps).size = ps.length := by
  induction ps using List.reverseRecOn with
  | nil => decide +kernel
  | append_singleton ps x ih =>
    rw [ofPairs_concat, size_assign (h.slots x (by simp)) (h.left.command?_eq_none h.fresh),
      ih h.left, List.length_append, List.length_singleton]

theorem eq_empty_of_isEmpty {plan : Plan} (h : plan.isEmpty = true) : plan = empty := by
  obtain ⟨commands⟩ := plan
  simp only [isEmpty, List.all_eq_true] at h
  refine congrArg mk (Vector.ext fun i hi => ?_)
  simpa using h commands[i] (by simp)

end Plan

/-! ## Footprints in a part of the plan -/

namespace State

variable {s : State} {rules : Rules} {plan : Plan} {ps qs : List (BotId × Command)}
  {id : BotId} {c : Command} {b : Bot}

theorem distinct_of_ids (h : s.Seated) (hids : ps.map (·.1) = s.activeIds) : Plan.Distinct ps where
  nodup := by
    rw [hids]
    exact h.nodup_activeIds
  slots x hx := by
    obtain ⟨b, hb, -⟩ := h.mem_activeIds.1 (hids ▸ List.mem_map_of_mem hx)
    exact h.index_lt hb

/-- The part of a bot in a group, by its command. -/
def role? (kind : GroupKind) (g : Region) (b : Bot) (c? : Option Command) :
    Option (BotId × Position) := do
  let (kind', nd, fd) ← c?.bind Command.group?
  if kind' = kind ∧ groupRegion b.position nd fd = g then some (b.id, b.position + nd) else none

theorem groupMembers_eq (s : State) (plan : Plan) (kind : GroupKind) (g : Region) :
    plan.groupMembers s kind g =
      s.activeBots.filterMap fun b => role? kind g b (plan.command? b.id) :=
  rfl

theorem groupMembers_ofPairs_append (h : s.Seated) (hids : (ps ++ qs).map (·.1) = s.activeIds)
    (kind : GroupKind) (g : Region) :
    (Plan.ofPairs ps).groupMembers s kind g <+:
      (Plan.ofPairs (ps ++ qs)).groupMembers s kind g := by
  have hdistinct := distinct_of_ids h hids
  obtain ⟨bs, bs', hbots, hbs, hbs'⟩ : ∃ bs bs', s.activeBots = bs ++ bs' ∧
      bs.map (·.id) = ps.map (·.1) ∧ bs'.map (·.id) = qs.map (·.1) := by
    rw [List.map_append] at hids
    exact List.map_eq_append_iff.1 hids.symm
  have hearly : ∀ b ∈ bs, (Plan.ofPairs ps).command? b.id =
      (Plan.ofPairs (ps ++ qs)).command? b.id := fun b hb => by
    obtain ⟨⟨k, c⟩, hx, hk⟩ := List.mem_map.1 (hbs ▸ List.mem_map_of_mem hb)
    rw [← hk, hdistinct.left.command?_ofPairs.2 hx,
      hdistinct.command?_ofPairs.2 (List.mem_append_left _ hx)]
  have hlate : ∀ b ∈ bs', (Plan.ofPairs ps).command? b.id = none := fun b hb =>
    hdistinct.left.command?_eq_none (hdistinct.apart (hbs' ▸ List.mem_map_of_mem hb))
  have hnone : bs'.filterMap (fun b => role? kind g b ((Plan.ofPairs ps).command? b.id)) = [] :=
    List.filterMap_eq_nil_iff.2 fun b hb => by
      rw [hlate b hb]
      rfl
  have hsame : bs.filterMap (fun b => role? kind g b ((Plan.ofPairs ps).command? b.id)) =
      bs.filterMap (fun b => role? kind g b ((Plan.ofPairs (ps ++ qs)).command? b.id)) :=
    List.filterMap_congr fun b hb => by rw [hearly b hb]
  rw [groupMembers_eq, groupMembers_eq, hbots, List.filterMap_append, List.filterMap_append, hnone,
    hsame, List.append_nil]
  exact List.prefix_append ..

theorem groupMembers_ne_nil {kind : GroupKind} {nd fd : Displacement} (hb : b ∈ s.activeBots)
    (hc : plan.command? b.id = some c) (hgroup : c.group? = some (kind, nd, fd)) :
    plan.groupMembers s kind (groupRegion b.position nd fd) ≠ [] := by
  rw [groupMembers_eq]
  refine List.ne_nil_of_mem (a := (b.id, b.position + nd)) (List.mem_filterMap.2 ⟨b, hb, ?_⟩)
  simp [role?, hc, hgroup]

theorem groupLeader?_ofPairs_append (h : s.Seated) (hids : (ps ++ qs).map (·.1) = s.activeIds)
    {kind : GroupKind} {g : Region} (hne : (Plan.ofPairs ps).groupMembers s kind g ≠ []) :
    (Plan.ofPairs ps).groupLeader? s kind g =
      (Plan.ofPairs (ps ++ qs)).groupLeader? s kind g := by
  obtain ⟨more, hmore⟩ := groupMembers_ofPairs_append h hids kind g
  rw [Plan.groupLeader?, Plan.groupLeader?, ← hmore]
  cases hmembers : (Plan.ofPairs ps).groupMembers s kind g with
  | nil => exact absurd hmembers hne
  | cons x rest => rfl

/-- What a bot claims does not depend on the bots that follow. -/
theorem claimed_ofPairs_append (h : s.Seated) (hids : (ps ++ qs).map (·.1) = s.activeIds)
    (hid : id ∈ ps.map (·.1)) :
    s.claimed (Plan.ofPairs ps) id = s.claimed (Plan.ofPairs (ps ++ qs)) id := by
  have hdistinct := distinct_of_ids h hids
  have hmem : id ∈ s.activeIds := by
    rw [← hids, List.map_append]
    exact List.mem_append_left _ hid
  obtain ⟨b, hb, rfl⟩ := List.mem_map.1 hmem
  obtain ⟨⟨k, c⟩, hx, hk⟩ := List.mem_map.1 hid
  obtain rfl : k = b.id := hk
  have hearly := hdistinct.left.command?_ofPairs.2 hx
  have hwhole := hdistinct.command?_ofPairs.2 (List.mem_append_left qs hx)
  have hleader : ∀ kind nd fd, c.group? = some (kind, nd, fd) →
      (Plan.ofPairs ps).groupLeader? s kind (groupRegion b.position nd fd) =
        (Plan.ofPairs (ps ++ qs)).groupLeader? s kind (groupRegion b.position nd fd) :=
    fun kind nd fd hgroup =>
      groupLeader?_ofPairs_append h hids (groupMembers_ne_nil hb hearly hgroup)
  rw [claimed_eq hearly, claimed_eq hwhole]
  cases c with
  | gfill nd fd => simp only [footprint, h.positionOf_eq hb, hleader .fill nd fd rfl]
  | gvoid nd fd => simp only [footprint, h.positionOf_eq hb, hleader .void nd fd rfl]
  | _ => rfl

theorem checkFootprints_eq_ok_iff_pairwise (h : s.Seated)
    (hids : (ps ++ qs).map (·.1) = s.activeIds) :
    s.checkFootprints (Plan.ofPairs ps) (ps.map (·.1)) = .ok () ↔
      (ps.map (·.1)).Pairwise fun i j => ∀ p ∈ s.claimed (Plan.ofPairs (ps ++ qs)) i,
        p ∉ s.claimed (Plan.ofPairs (ps ++ qs)) j := by
  rw [checkFootprints_eq_ok_iff_none,
    findInterference?_eq_none_iff (distinct_of_ids h hids).left.nodup]
  refine List.Pairwise.iff_of_mem fun {i j} hi hj => ?_
  rw [claimed_ofPairs_append h hids hi, claimed_ofPairs_append h hids hj]

theorem checkFootprints_ofPairs_append (h : s.Seated) (hids : (ps ++ qs).map (·.1) = s.activeIds)
    (hok : s.checkFootprints (Plan.ofPairs (ps ++ qs)) s.activeIds = .ok ()) :
    s.checkFootprints (Plan.ofPairs ps) (ps.map (·.1)) = .ok () := by
  have hids' : ((ps ++ qs) ++ ([] : List (BotId × Command))).map (·.1) = s.activeIds := by
    rwa [List.append_nil]
  have hall := checkFootprints_eq_ok_iff_pairwise h hids'
  rw [List.append_nil, hids] at hall
  rw [checkFootprints_eq_ok_iff_pairwise h hids]
  refine (hall.1 hok).sublist ?_
  rw [← hids, List.map_append]
  exact List.sublist_append_left ..

/-! ## What is left to the commit -/

theorem shared_of_checkTogether {cause : PreconditionError}
    (herror : s.checkTogether plan id c = .error cause) : cause.Shared := by
  have hfusion : ∀ p nd primary, s.checkFusion plan p nd primary = .error cause →
      cause.Shared := by
    intro p nd primary hcheck
    unfold checkFusion at hcheck
    split at hcheck
    · cases hcheck
    · cases hcheck
      trivial
  have hgroup : ∀ kind g, s.checkGroup plan kind g = .error cause → cause.Shared := by
    intro kind g hcheck
    simp only [checkGroup] at hcheck
    split at hcheck
    · cases hcheck
      trivial
    · split at hcheck
      · cases hcheck
        trivial
      · cases hcheck
  cases c with
  | fusionP nd | fusionS nd => exact hfusion _ _ _ herror
  | gfill nd fd | gvoid nd fd => exact hgroup _ _ herror
  | _ => cases herror

theorem exists_of_checkBots {ids : List BotId} {cause : StepError}
    (herror : s.checkBots rules plan ids = .error cause) :
    ∃ id ∈ ids, s.checkBot rules plan id = .error cause := by
  induction ids with
  | nil => cases herror
  | cons id ids ih =>
    rw [checkBots, seq_eq_error_iff] at herror
    rcases herror with hhead | ⟨-, hrest⟩
    · exact ⟨id, List.mem_cons_self, hhead⟩
    · obtain ⟨id', hid', herror⟩ := ih hrest
      exact ⟨id', List.mem_cons_of_mem _ hid', herror⟩

/-! ## Commands accepted one by one -/

/-- A command is accepted after earlier ones: it is fit to be carried out as far as that can be
judged alone, and its footprint is disjoint from theirs. -/
structure Accepts (s : State) (rules : Rules) (earlier : List (BotId × Command))
    (x : BotId × Command) : Prop where
  valid : x.2.Valid
  alone : s.checkAlone rules x.1 x.2 = .ok ()
  apart : s.checkFootprints (Plan.ofPairs (earlier ++ [x])) ((earlier ++ [x]).map (·.1)) = .ok ()

/-- Each of the later commands is accepted after those before it. -/
def AcceptsAll (s : State) (rules : Rules) : (earlier later : List (BotId × Command)) → Prop
  | _, [] => True
  | earlier, x :: later => s.Accepts rules earlier x ∧ s.AcceptsAll rules (earlier ++ [x]) later

theorem AcceptsAll.of_mem (h : s.AcceptsAll rules ps qs) {x : BotId × Command} (hx : x ∈ qs) :
    x.2.Valid ∧ s.checkAlone rules x.1 x.2 = .ok () := by
  induction qs generalizing ps with
  | nil => cases hx
  | cons y qs ih =>
    rcases List.mem_cons.1 hx with rfl | hlater
    · exact ⟨h.1.valid, h.1.alone⟩
    · exact ih h.2 hlater

theorem AcceptsAll.apart (h : s.AcceptsAll rules ps qs) (hne : qs ≠ []) :
    s.checkFootprints (Plan.ofPairs (ps ++ qs)) ((ps ++ qs).map (·.1)) = .ok () := by
  induction qs generalizing ps with
  | nil => exact absurd rfl hne
  | cons x qs ih =>
    rw [List.append_cons]
    by_cases hlast : qs = []
    · rw [hlast, List.append_nil]
      exact h.1.apart
    · exact ih h.2 hlast

theorem acceptsAll_of_checkPlan (h : s.Seated) (hids : (ps ++ qs).map (·.1) = s.activeIds)
    (hok : s.checkPlan rules (Plan.ofPairs (ps ++ qs)) s.activeIds = .ok ()) :
    s.AcceptsAll rules ps qs := by
  induction qs generalizing ps with
  | nil => trivial
  | cons x qs ih =>
    rw [List.append_cons] at hids hok
    refine ⟨?_, ih hids hok⟩
    have hmem : x ∈ (ps ++ [x]) ++ qs := by simp
    rw [checkPlan, seq_eq_ok_iff, checkBots_eq_ok_iff] at hok
    have hbot := hok.1 x.1 (hids ▸ List.mem_map_of_mem hmem)
    rw [checkBot, (distinct_of_ids h hids).command?_ofPairs.2 hmem] at hbot
    simp only [seq_eq_ok_iff, mapError_eq_ok_iff, Command.check_eq_ok_iff, checkPrecondition]
      at hbot
    exact ⟨hbot.1, hbot.2.1, checkFootprints_ofPairs_append h hids hok.2⟩

/-- When every command has been accepted, the checks of the step fail only for causes that the
whole plan shows. -/
theorem deferred_of_checkPlan (h : s.Seated) (hids : ps.map (·.1) = s.activeIds) (hne : ps ≠ [])
    (haccepts : s.AcceptsAll rules [] ps) {cause : StepError}
    (herror : s.checkPlan rules (Plan.ofPairs ps) s.activeIds = .error cause) :
    cause.Deferred := by
  rw [checkPlan, seq_eq_error_iff] at herror
  rcases herror with hbots | ⟨-, hclash⟩
  · obtain ⟨id, hid, hbot⟩ := exists_of_checkBots hbots
    rw [← hids] at hid
    obtain ⟨x, hx, rfl⟩ := List.mem_map.1 hid
    obtain ⟨hvalid, halone⟩ := haccepts.of_mem hx
    rw [checkBot, (distinct_of_ids h hids).command?_ofPairs.2 hx] at hbot
    simp only [Command.check_eq_ok_iff.2 hvalid, checkPrecondition, halone] at hbot
    cases htogether : s.checkTogether (Plan.ofPairs ps) x.1 x.2 with
    | ok _ =>
      rw [htogether] at hbot
      cases hbot
    | error why =>
      rw [htogether] at hbot
      obtain rfl := Except.error.inj hbot
      exact shared_of_checkTogether htogether
  · have hapart := haccepts.apart hne
    rw [List.nil_append, hids, hclash] at hapart
    cases hapart

theorem deferred_of_resolveStep (h : s.Seated) (hids : ps.map (·.1) = s.activeIds) (hne : ps ≠ [])
    (haccepts : s.AcceptsAll rules [] ps) {cause : StepError}
    (herror : (s.resolveStep rules (Plan.ofPairs ps) s.activeIds).1 = .error cause) :
    cause.Deferred := by
  rcases resolveStep_cases (Prod.ext herror rfl) with ⟨why, hcheck, heq, -⟩ | ⟨-, -, hresult⟩
  · rw [Except.error.inj heq]
    exact deferred_of_checkPlan h hids hne haccepts hcheck
  · rcases hresult with hdone | ⟨hfloats, -⟩
    · cases hdone
    · rw [Except.error.inj hfloats]
      trivial

end State

end VoxelSwarm
