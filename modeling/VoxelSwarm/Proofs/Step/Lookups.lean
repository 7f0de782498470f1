import VoxelSwarm.Proofs.Step.Atomic

/-!
# What bots look up at their turns

An absorbing bot looks for its partner, and a bot with a group command for the others that name its
box. The checks look them up in the state before the step, but each turn looks again, when the bots
before it have moved, split and absorbed each other. `partway` is the state that a turn finds, and
`Steady` says that the answers are the same there. Who leaves the swarm in whose turn is told from
the execution alone (`Removes`): it is the one of a pair that is absorbed, and only that
(`Legal.removes_iff`), so that the fusion commands of a plan come in pairs (`lookups_steady`), as
do those of any plan that a step carries out (`lookups_of_runStep`).
-/

namespace VoxelSwarm

namespace State

/-- What carrying out a plan comes to when the bots of `done` have had their turns. -/
def partway (s : State) (plan : Plan) (done : List Bot) : State × Bool :=
  (done.map (·.id)).foldl (executeBot plan) (s.charge (Energy.passive s s.activeCount), false)

/-- The bot `c` leaves the swarm in the turn of `b`. -/
def Removes (s : State) (plan : Plan) (b c : Bot) : Prop :=
  ∃ done rest, s.activeBots = done ++ b :: rest ∧ c.id ∈ (s.partway plan done).1.activeIds ∧
    c.id ∉ (s.partway plan (done ++ [b])).1.activeIds

/-- When the bots of `done` have had their turns, `b` finds in `c` the partner that it had before
the step. Nobody has absorbed it yet, and the turn of `b` does. -/
structure Finds (s : State) (plan : Plan) (done : List Bot) (b : Bot) (nd : Displacement)
    (c : Bot) : Prop where
  before : plan.fusionPartner? s (s.positionOf b.id) nd false = some c.id
  again : plan.fusionPartner? (s.partway plan done).1 ((s.partway plan done).1.positionOf b.id) nd
    false = some c.id
  active : c ∈ (s.partway plan done).1.activeBots
  fresh : ∀ b' ∈ done, ¬s.Removes plan b' c
  removes : s.Removes plan b c
  takes : (s.partway plan (done ++ [b])).1.bot? b.id = some (b.absorb c.id c.seeds)

/-- When the bots of `done` have had their turns and `b` comes next, what is looked up is what it
was before the step. -/
structure Steady (s : State) (plan : Plan) (done : List Bot) (b : Bot) : Prop where
  position : (s.partway plan done).1.positionOf b.id = s.positionOf b.id
  partner : ∀ nd, plan.command? b.id = some (.fusionP nd) →
    ∃ c ∈ s.activeBots, s.Finds plan done b nd c
  members : ∀ kind g,
    plan.groupMembers (s.partway plan done).1 kind g = plan.groupMembers s kind g

variable {s t : State} {rules : Rules} {plan : Plan} {b c x : Bot} {done rest : List Bot}
  {base : Int} {changed : Bool}

/-! ## The turns one after another -/

theorem partway_append (plan : Plan) (done : List Bot) (b : Bot) :
    s.partway plan (done ++ [b]) = executeBot plan (s.partway plan done) b.id := by
  rw [partway, List.map_append, List.foldl_append, ← partway]
  rfl

theorem executeAll_eq_foldl_partway (hsplit : s.activeBots = done ++ rest) :
    s.executeAll plan s.activeIds =
      (rest.map (·.id)).foldl (executeBot plan) (s.partway plan done) := by
  have hcount : s.activeIds.length = s.activeCount := List.length_map _
  rw [executeAll, hcount, partway, ← List.foldl_append, ← List.map_append, ← hsplit, activeIds]

theorem Seated.of_split (hs : s.Seated) (hsplit : s.activeBots = done ++ b :: rest) :
    (∀ b' ∈ done, b' ∈ s.activeBots) ∧ b ∈ s.activeBots ∧ b ∉ done := by
  have hnodup := hs.nodup_activeBots
  rw [hsplit] at hnodup ⊢
  exact ⟨fun b' hb' => List.mem_append_left _ hb', by simp,
    fun hmem => List.disjoint_of_nodup_append hnodup hmem List.mem_cons_self⟩

namespace Legal

variable (hl : s.Legal rules plan) (h : s.Arranged) (hm : s.matrix.Consistent)
include hl h hm

theorem midway_partway (hsplit : s.activeBots = done ++ rest) :
    Midway s plan (s.energy + Energy.passive s s.activeCount) done (s.partway plan done).1
      (s.partway plan done).2 := by
  have hstart := Midway.start plan h.toSeated hm (Energy.passive s s.activeCount)
  refine Midway.foldl_executeBot hl h hstart (fun b hb => ?_) ?_ rfl
  · rw [hsplit]
    exact List.mem_append_left _ hb
  · exact (hsplit ▸ h.nodup_activeBots).of_append_left

theorem turned_partway (hsplit : s.activeBots = done ++ b :: rest) {cmd : Command}
    (hc : plan.command? b.id = some cmd) :
    Turned s plan b (s.partway plan done).1 ((s.partway plan done).1.execute plan b.id cmd) := by
  obtain ⟨hdone, hb, hnew⟩ := h.of_split hsplit
  exact (hl.midway_partway h hm hsplit).turned hl h hdone hb hnew hc

end Legal

theorem partway_append_eq {cmd : Command} (hc : plan.command? b.id = some cmd) :
    (s.partway plan (done ++ [b])).1 = ((s.partway plan done).1.execute plan b.id cmd).1 := by
  rw [partway_append, executeBot, hc]

/-! ## Who leaves in whose turn -/

theorem Turned.mem_activeIds {after : State × Bool} (hturn : Turned s plan b t after)
    (ht : t.Seated) {k : BotId} (hk : k ∈ t.activeIds)
    (hactive : ∀ x ∈ s.rewritten plan b, x.id = k → x.active = true) :
    k ∈ after.1.activeIds := by
  rw [hturn.seated.mem_activeIds]
  by_cases hrew : ∃ x ∈ s.rewritten plan b, x.id = k
  · obtain ⟨x, hx, rfl⟩ := hrew
    exact ⟨x, hturn.rewritten x hx, hactive x hx rfl⟩
  · push Not at hrew
    rw [hturn.kept k hrew]
    exact ht.mem_activeIds.1 hk

namespace Legal

variable (hl : s.Legal rules plan) (h : s.Arranged) (hm : s.matrix.Consistent)
include hl h hm

omit hm in
theorem pairs_or_halt_of_idle (hb : b ∈ s.activeBots) (hc : c ∈ s.activeBots)
    (hx : x ∈ s.rewritten plan b) (hid : x.id = c.id) (hidle : x.active = false) :
    plan.Pairs b c ∨ plan.command? b.id = some .halt ∧ b = c := by
  have hactive : b.active = true := (h.mem_activeBots.1 hb).2
  have hrew := hl.rewrites h hb
  generalize s.rewritten plan b = l at hrew hx
  cases hrew with
  | stands _ y _ _ _ _ hsame =>
    obtain rfl := List.mem_singleton.1 hx
    exact absurd (hsame.trans hactive) (by simp [hidle])
  | halts hhalt =>
    obtain rfl := List.mem_singleton.1 hx
    exact Or.inr ⟨hhalt, h.eq_of_id_eq hb hc hid⟩
  | absorbs nd c' _ hc' hpairs =>
    rcases List.mem_cons.1 hx with rfl | hx
    · exact absurd hactive (by simpa [Bot.absorb] using hidle)
    · obtain rfl := List.mem_singleton.1 hx
      exact Or.inl (h.eq_of_id_eq hc' hc hid ▸ hpairs)
  | absorbed => cases hx
  | splits nd m child seeds =>
    rcases List.mem_cons.1 hx with rfl | hx
    · exact absurd hactive (by simpa using hidle)
    · obtain rfl := List.mem_singleton.1 hx
      cases hidle

theorem pairs_or_halt_of_removes (hc : c ∈ s.activeBots) (hremoves : s.Removes plan b c) :
    b ∈ s.activeBots ∧ (plan.Pairs b c ∨ plan.command? b.id = some .halt ∧ b = c) := by
  obtain ⟨done, rest, hsplit, hbefore, hafter⟩ := hremoves
  obtain ⟨-, hb, -⟩ := h.of_split hsplit
  obtain ⟨cmd, hcmd⟩ := (hl.covers b.id).2 (List.mem_map_of_mem hb)
  have hmid := hl.midway_partway h hm hsplit
  have hturn := hl.turned_partway h hm hsplit hcmd
  rw [partway_append_eq hcmd] at hafter
  have hgone : ∃ x ∈ s.rewritten plan b, x.id = c.id ∧ x.active = false := by
    by_contra hnone
    push Not at hnone
    apply hafter
    apply hturn.mem_activeIds hmid.seated hbefore
    intro x hx hid
    exact Bool.eq_true_of_not_eq_false (hnone x hx hid)
  obtain ⟨x, hx, hid, hidle⟩ := hgone
  exact ⟨hb, hl.pairs_or_halt_of_idle h hb hc hx hid hidle⟩

theorem removes_of_pairs (hb : b ∈ s.activeBots) (hc : c ∈ s.activeBots)
    (hpairs : plan.Pairs b c) : s.Removes plan b c := by
  obtain ⟨done, rest, hsplit⟩ := List.append_of_mem hb
  obtain ⟨hdone, -, hnew⟩ := h.of_split hsplit
  obtain ⟨nd, hcmd, -⟩ := hpairs.1
  have hmid := hl.midway_partway h hm hsplit
  have hturn := hl.turned_partway h hm hsplit hcmd
  have hbefore := hmid.bot?_partner hl h hdone hb hnew hc hpairs
  have hafter := hturn.rewritten c.retire (hl.retire_mem_rewritten h hb hc hpairs)
  refine ⟨done, rest, hsplit, ?_, ?_⟩
  · exact hmid.seated.mem_activeIds.2 ⟨c, hbefore, (h.mem_activeBots.1 hc).2⟩
  · rw [partway_append_eq hcmd, hturn.seated.mem_activeIds]
    rintro ⟨x, hx, hactive⟩
    obtain rfl : x = c.retire := Option.some.inj (hx.symm.trans hafter)
    cases hactive

/-- What is absorbed leaves the swarm, and what leaves without a halt has been absorbed. -/
theorem removes_iff (hc : c ∈ s.activeBots) (hstays : plan.command? c.id ≠ some .halt) :
    s.Removes plan b c ↔ b ∈ s.activeBots ∧ plan.Pairs b c := by
  constructor
  · intro hremoves
    obtain ⟨hb, hpairs | ⟨hhalt, rfl⟩⟩ := hl.pairs_or_halt_of_removes h hm hc hremoves
    · exact ⟨hb, hpairs⟩
    · exact absurd hhalt hstays
  · rintro ⟨hb, hpairs⟩
    exact hl.removes_of_pairs h hm hb hc hpairs

/-! ## Pairs -/

theorem exists_unique_primary (hc : c ∈ s.activeBots) {nd : Displacement}
    (hcmd : plan.command? c.id = some (.fusionS nd)) :
    ∃ b ∈ s.activeBots, (∃ nd', plan.command? b.id = some (.fusionP nd')) ∧
      ∀ b', s.Removes plan b' c ↔ b' = b := by
  obtain ⟨-, b, hb, hpairs⟩ := hl.permits c hc _ hcmd
  have hprimary : ∃ nd', plan.command? b.id = some (.fusionP nd') :=
    hpairs.1.imp fun _ hnd => hnd.1
  refine ⟨b, hb, hprimary, fun b' => ?_⟩
  rw [hl.removes_iff h hm hc (by simp [hcmd])]
  constructor
  · rintro ⟨hb', hpairs'⟩
    exact pairs_left_unique h hb' hb hpairs' hpairs
  · rintro rfl
    exact ⟨hb, hpairs⟩

theorem exists_unique_secondary (hb : b ∈ s.activeBots) {nd : Displacement}
    (hcmd : plan.command? b.id = some (.fusionP nd)) :
    ∃ c ∈ s.activeBots, (∃ nd', plan.command? c.id = some (.fusionS nd')) ∧
      ∀ c' ∈ s.activeBots, s.Removes plan b c' ↔ c' = c := by
  obtain ⟨-, c, hc, hpairs⟩ := hl.permits b hb _ hcmd
  have hsecondary : ∃ nd', plan.command? c.id = some (.fusionS nd') :=
    hpairs.2.imp fun _ hnd => hnd.1
  refine ⟨c, hc, hsecondary, fun c' hc' => ⟨fun hremoves => ?_, ?_⟩⟩
  · obtain ⟨-, hpairs' | ⟨hhalt, -⟩⟩ := hl.pairs_or_halt_of_removes h hm hc' hremoves
    · exact pairs_right_unique h hc' hc hpairs' hpairs
    · simp [hhalt] at hcmd
  · rintro rfl
    exact hl.removes_of_pairs h hm hb hc hpairs

/-! ## Lookups -/

theorem finds (hsplit : s.activeBots = done ++ b :: rest) {nd : Displacement}
    (hcmd : plan.command? b.id = some (.fusionP nd)) :
    ∃ c ∈ s.activeBots, s.Finds plan done b nd c := by
  obtain ⟨hdone, hb, hnew⟩ := h.of_split hsplit
  have hmid := hl.midway_partway h hm hsplit
  have hturn := hl.turned_partway h hm hsplit hcmd
  obtain ⟨c, hc, hpairs, hpos, hpartner⟩ := hl.exists_partner h hb hcmd
  obtain ⟨back, hback, -⟩ := hpairs.2
  have hslot := hmid.bot?_partner hl h hdone hb hnew hc hpairs
  have habsorb : b.absorb c.id c.seeds ∈ s.rewritten plan b := by
    simp [State.rewritten, hcmd, hpartner, h.bot?_of_mem hc]
  refine ⟨c, hc, ?_, ?_, ?_, fun b' hb' hremoves => ?_, hl.removes_of_pairs h hm hb hc hpairs, ?_⟩
  · rw [h.positionOf_eq hb, hpartner]
  · rw [hmid.positionOf_eq hl h hdone hb hnew]
    exact hmid.fusionPartner?_eq hl h hdone hb hnew hc hpairs hpos
  · exact hmid.seated.mem_of_bot? hslot (h.mem_activeBots.1 hc).2
  · -- two bots that absorb the same one are the same
    obtain ⟨hb'', hpairs'⟩ := (hl.removes_iff h hm hc (by simp [hback])).1 hremoves
    exact hnew (pairs_left_unique h hb'' hb hpairs' hpairs ▸ hb')
  · rw [partway_append_eq hcmd]
    exact hturn.rewritten _ habsorb

theorem steady (hsplit : s.activeBots = done ++ b :: rest) : s.Steady plan done b := by
  obtain ⟨hdone, hb, hnew⟩ := h.of_split hsplit
  have hmid := hl.midway_partway h hm hsplit
  refine ⟨?_, fun nd hcmd => hl.finds h hm hsplit hcmd, fun kind g => ?_⟩
  · rw [hmid.positionOf_eq hl h hdone hb hnew, h.positionOf_eq hb]
  · exact hmid.groupMembers_eq hl h hdone kind g

end Legal

/-- When a plan that passes the checks is carried out, each bot finds at its turn whom it found
before the step: an absorbing bot its partner, which is still there, and a bot with a group command
all others that name the box. Each bot that is to be absorbed leaves the swarm in the turn of one
absorbing bot, and in the turn of each absorbing bot leaves one that is to be absorbed. -/
theorem lookups_steady (h : s.Coherent) (hm : s.matrix.Consistent) (hcovers : plan.Covers s)
    (hok : s.checkPlan rules plan s.activeIds = .ok ()) :
    (∀ done b rest, s.activeBots = done ++ b :: rest →
      s.executeAll plan s.activeIds =
          ((b :: rest).map (·.id)).foldl (executeBot plan) (s.partway plan done) ∧
        s.Steady plan done b) ∧
    (∀ c ∈ s.activeBots, ∀ nd, plan.command? c.id = some (.fusionS nd) →
      ∃ b ∈ s.activeBots, (∃ nd', plan.command? b.id = some (.fusionP nd')) ∧
        ∀ b', s.Removes plan b' c ↔ b' = b) ∧
    ∀ b ∈ s.activeBots, ∀ nd, plan.command? b.id = some (.fusionP nd) →
      ∃ c ∈ s.activeBots, (∃ nd', plan.command? c.id = some (.fusionS nd')) ∧
        ∀ c' ∈ s.activeBots, s.Removes plan b c' ↔ c' = c := by
  have hl := (checkPlan_eq_ok_iff h.toSeated hcovers).1 hok
  refine ⟨?_, ?_, ?_⟩
  · intro done b rest hsplit
    exact ⟨executeAll_eq_foldl_partway hsplit, hl.steady h hm hsplit⟩
  · intro c hc nd hcmd
    exact hl.exists_unique_primary h hm hc hcmd
  · intro b hb nd hcmd
    exact hl.exists_unique_secondary h hm hb hcmd

/-- Six bots in a grid of side 5 with one full voxel, which floats. -/
def medley : State :=
  [⟨⟨1⟩, ⟨0, 0, 0⟩, [], true⟩, ⟨⟨2⟩, ⟨0, 0, 2⟩, [], true⟩, ⟨⟨3⟩, ⟨0, 2, 0⟩, [⟨8⟩, ⟨9⟩], true⟩,
    ⟨⟨4⟩, ⟨4, 0, 4⟩, [], true⟩, ⟨⟨5⟩, ⟨0, 0, 3⟩, [⟨7⟩], true⟩,
    ⟨⟨6⟩, ⟨4, 4, 4⟩, [], true⟩].foldl install
      { start ((Matrix.empty 5).set ⟨1, 1, 0⟩ true) (Matrix.empty 5) with harmonics := .high }

/-- Before the fifth bot absorbs the second one, others move, split and fill a row. -/
def medleyCommands : List Command :=
  [.smove ⟨2, 0, 0⟩, .fusionS ⟨0, 0, 1⟩, .fission ⟨1, 0, 0⟩ 1, .gfill ⟨0, 1, 0⟩ ⟨0, 2, 0⟩,
    .fusionP ⟨0, 0, -1⟩, .gfill ⟨0, -1, 0⟩ ⟨0, -2, 0⟩]

def medleyPlan : Plan :=
  (medley.activeIds.zip medleyCommands).foldl (fun plan x => plan.assign x.1 x.2) Plan.empty

theorem medley_coherent : medley.Coherent :=
  (checkWellFormed_eq_ok_iff.1 (by decide +kernel : medley.checkWellFormed = .ok ())).1

theorem medley_consistent : medley.matrix.Consistent :=
  (Matrix.Consistent.empty 5).set ⟨1, 1, 0⟩ true

theorem medley_covers : medleyPlan.Covers medley := by
  have hread : readPlan medley.activeIds Plan.empty (CommandList.ofList medleyCommands) =
      (.ok medleyPlan, ⟨[], 6⟩) := by decide +kernel
  exact covers_of_readPlan medley_coherent.toSeated hread

theorem medley_checkPlan : medley.checkPlan {} medleyPlan medley.activeIds = .ok () := by
  have hs := medley_coherent.toSeated
  have hids : medley.activeIds = [⟨1⟩, ⟨2⟩, ⟨3⟩, ⟨4⟩, ⟨5⟩, ⟨6⟩] := by decide +kernel
  rw [checkPlan, seq_eq_ok_iff, checkFootprints_eq_ok_iff hs, checkBots_eq_ok_iff, hids]
  simp only [List.forall_mem_cons]
  refine ⟨⟨by decide +kernel, by decide +kernel, by decide +kernel, ?_, by decide +kernel, ?_,
    by simp⟩, by decide +kernel⟩
  · have hfourth : ⟨⟨4⟩, ⟨4, 0, 4⟩, [], true⟩ ∈ medley.activeBots := by decide +kernel
    exact (checkBot_eq_ok_iff hs hfourth).2 ⟨.gfill ⟨0, 1, 0⟩ ⟨0, 2, 0⟩, by decide +kernel,
      by decide, ⟨by decide, by decide, by decide, by decide +kernel, by decide +kernel⟩⟩
  · have hsixth : ⟨⟨6⟩, ⟨4, 4, 4⟩, [], true⟩ ∈ medley.activeBots := by decide +kernel
    exact (checkBot_eq_ok_iff hs hsixth).2 ⟨.gfill ⟨0, -1, 0⟩ ⟨0, -2, 0⟩, by decide +kernel,
      by decide, ⟨by decide, by decide, by decide, by decide +kernel, by decide +kernel⟩⟩

theorem lookups_steady_medley :
    medley.Steady medleyPlan (medley.activeBots.take 4) ⟨⟨5⟩, ⟨0, 0, 3⟩, [⟨7⟩], true⟩ ∧
    medley.Finds medleyPlan (medley.activeBots.take 4) ⟨⟨5⟩, ⟨0, 0, 3⟩, [⟨7⟩], true⟩ ⟨0, 0, -1⟩
      ⟨⟨2⟩, ⟨0, 0, 2⟩, [], true⟩ ∧
    (∀ b, medley.Removes medleyPlan b ⟨⟨2⟩, ⟨0, 0, 2⟩, [], true⟩ ↔
      b = ⟨⟨5⟩, ⟨0, 0, 3⟩, [⟨7⟩], true⟩) ∧
    ∀ c ∈ medley.activeBots, medley.Removes medleyPlan ⟨⟨5⟩, ⟨0, 0, 3⟩, [⟨7⟩], true⟩ c ↔
      c = ⟨⟨2⟩, ⟨0, 0, 2⟩, [], true⟩ := by
  obtain ⟨hturns, hsecondary, hprimary⟩ := lookups_steady medley_coherent
    medley_consistent medley_covers medley_checkPlan
  have hsplit : medley.activeBots = medley.activeBots.take 4 ++ ⟨⟨5⟩, ⟨0, 0, 3⟩, [⟨7⟩], true⟩ ::
      [⟨⟨6⟩, ⟨4, 4, 4⟩, [], true⟩] := by decide +kernel
  have hsecond : ⟨⟨2⟩, ⟨0, 0, 2⟩, [], true⟩ ∈ medley.activeBots := by decide +kernel
  have hfifth : ⟨⟨5⟩, ⟨0, 0, 3⟩, [⟨7⟩], true⟩ ∈ medley.activeBots := by decide +kernel
  have hfuses : medleyPlan.command? ⟨5⟩ = some (.fusionP ⟨0, 0, -1⟩) := by decide +kernel
  have hsteady := (hturns _ _ _ hsplit).2
  obtain ⟨c, hc, hfinds⟩ := hsteady.partner _ hfuses
  have hlookup : medleyPlan.fusionPartner? medley (medley.positionOf ⟨5⟩) ⟨0, 0, -1⟩ false =
      some ⟨2⟩ := by decide +kernel
  obtain rfl : c = ⟨⟨2⟩, ⟨0, 0, 2⟩, [], true⟩ := medley_coherent.eq_of_id_eq hc hsecond
    (Option.some.inj (hfinds.before.symm.trans hlookup))
  obtain ⟨b, -, -, hleaves⟩ := hsecondary _ hsecond ⟨0, 0, 1⟩ (by decide +kernel)
  obtain ⟨c, -, -, hpartner⟩ := hprimary _ hfifth _ hfuses
  obtain rfl := (hleaves _).1 hfinds.removes
  obtain rfl := (hpartner _ hc).1 hfinds.removes
  exact ⟨hsteady, hfinds, hleaves, hpartner⟩

/-- In the plan that a step reads and carries out the turns are steady and fusions come in pairs. -/
theorem lookups_of_runStep {σ : Type} [CommandSource σ] {src src' : σ}
    {result : Except StepError StepReport} (h : s.Coherent) (hm : s.matrix.Consistent)
    (hstep : s.runStep rules src = (result, t, src')) (hdone : CarriedOut result) :
    ∃ plan, readPlan s.activeIds Plan.empty src = (.ok plan, src') ∧
      (s.executeAll plan s.activeIds).1 = t ∧
      (∀ done b rest, s.activeBots = done ++ b :: rest → s.Steady plan done b) ∧
      (∀ c ∈ s.activeBots, ∀ nd, plan.command? c.id = some (.fusionS nd) →
        ∃ b ∈ s.activeBots, (∃ nd', plan.command? b.id = some (.fusionP nd')) ∧
          ∀ b', s.Removes plan b' c ↔ b' = b) ∧
      ∀ b ∈ s.activeBots, ∀ nd, plan.command? b.id = some (.fusionP nd) →
        ∃ c ∈ s.activeBots, (∃ nd', plan.command? c.id = some (.fusionS nd')) ∧
          ∀ c' ∈ s.activeBots, s.Removes plan b c' ↔ c' = c := by
  obtain ⟨plan, hread, hl, ht⟩ := exists_legal_of_runStep h.toSeated hstep hdone
  exact ⟨plan, hread, ht, fun done b rest hsplit => hl.steady h hm hsplit,
    fun c hc nd hcmd => hl.exists_unique_primary h hm hc hcmd,
    fun b hb nd hcmd => hl.exists_unique_secondary h hm hb hcmd⟩

end State

end VoxelSwarm
