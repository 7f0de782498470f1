import Mathlib.Data.Set.Function
import VoxelSwarm.Proofs.Step.Atomic
import VoxelSwarm.Proofs.Step.Ledger

/-!
# Groups

The bots that name one box with one kind of group command are its `team`. In a plan that passes the
checks a team has one bot for each corner of its box, and nobody else has anything to do there:
nobody stands in the box or reaches into it, and it meets no other team's box (`Secluded`). The
leader claims the whole box, so that most of this is what disjoint footprints say; that the leader
itself is outside takes the check of its own command. When the plan is carried out, the box is
written once, by the leader, and nobody is in it afterwards. A step carries out only plans that
pass, so all this holds of the plan that it has read (`groups_of_runStep`).
-/

namespace VoxelSwarm

/-- The voxels that a command of a bot at `position` needs beside that one, but for the box of a
group: the voxel that is filled, voided or taken by a new bot, and the way of a move. -/
def Command.reach (position : Position) : Command → List Position
  | .fill nd | .void nd | .fission nd _ => [position + nd]
  | .smove lld => straightPath position lld
  | .lmove sld₁ sld₂ => bentPath position sld₁ sld₂
  | _ => []

namespace Plan

/-- The bot has a group command of one kind over a box. -/
def Joins (plan : Plan) (kind : GroupKind) (g : Region) (b : Bot) : Prop :=
  ∃ c nd fd, plan.command? b.id = some c ∧ c.group? = some (kind, nd, fd) ∧
    groupRegion b.position nd fd = g

theorem any_group?_iff {plan : Plan} {kind : GroupKind} {g : Region} {b : Bot} :
    (((plan.command? b.id).bind Command.group?).any fun (kind', nd, fd) =>
      kind' = kind ∧ groupRegion b.position nd fd = g) = true ↔ plan.Joins kind g b := by
  simp only [Joins, Option.any_eq_true, Option.bind_eq_some_iff, decide_eq_true_eq]
  constructor
  · rintro ⟨⟨kind', nd, fd⟩, ⟨c, hc, hgroup⟩, rfl, hregion⟩
    exact ⟨c, nd, fd, hc, hgroup, hregion⟩
  · rintro ⟨c, nd, fd, hc, hgroup, hregion⟩
    exact ⟨(kind, nd, fd), ⟨c, hc, hgroup⟩, rfl, hregion⟩

instance (plan : Plan) (kind : GroupKind) (g : Region) (b : Bot) :
    Decidable (plan.Joins kind g b) :=
  decidable_of_iff _ any_group?_iff

/-- The corner of its box that a bot with a group command names itself. -/
def cornerOf (plan : Plan) (b : Bot) : Position :=
  match (plan.command? b.id).bind Command.group? with
  | some (_, nd, _) => b.position + nd
  | none => b.position

end Plan

namespace State

/-- The active bots that name a box with one kind of group command. -/
def team (s : State) (plan : Plan) (kind : GroupKind) (g : Region) : List Bot :=
  s.activeBots.filter (plan.Joins kind g)

/-- A team has one bot for each corner of its box, and nobody else has anything to do there. -/
structure Secluded (s : State) (plan : Plan) (kind : GroupKind) (g : Region) : Prop where
  size : (s.team plan kind g).length = 2 ^ g.dimension
  corners : Set.BijOn plan.cornerOf {b | b ∈ s.team plan kind g} {p | p ∈ g.corners}
  outside : ∀ b ∈ s.activeBots, ¬g.Contains b.position
  apart : ∀ kind' g', s.team plan kind' g' ≠ [] → (kind', g') ≠ (kind, g) →
    ∀ p, g.Contains p → ¬g'.Contains p
  clear : ∀ b ∈ s.activeBots, ∀ c, plan.command? b.id = some c →
    ∀ p ∈ c.reach b.position, ¬g.Contains p

/-- The voxels that a bot writes in its turn, in order. -/
def strokes (plan : Plan) (t : State) (id : BotId) : List Position :=
  match (plan.command? id).bind (t.edit? plan id) with
  | none => []
  | some e => e.voxels.takeWhile fun p => t.matrix.Holds p

/-- Who writes which voxel while the bots have their turns one after another. -/
def writesFrom (plan : Plan) : State × Bool → List BotId → List (BotId × Position)
  | _, [] => []
  | (t, changed), id :: ids =>
    (strokes plan t id).map (fun p => (id, p)) ++
      writesFrom plan (executeBot plan (t, changed) id) ids

/-- Who writes which voxel when a plan is carried out. -/
def writes (s : State) (plan : Plan) (ids : List BotId) : List (BotId × Position) :=
  writesFrom plan (s.charge (Energy.passive s ids.length), false) ids

/-- When the plan is carried out, the lowest bot of a team writes each voxel of its box, nobody
writes one again, and nobody stands there in the end. No write goes unseen: whatever has changed has
been written by somebody. -/
structure Attended (s : State) (plan : Plan) (kind : GroupKind) (g : Region) : Prop where
  outside : ∀ b ∈ (s.executeAll plan s.activeIds).1.activeBots, ¬g.Contains b.position
  once : ∃ leader ∈ s.team plan kind g,
    (∀ b ∈ s.team plan kind g, leader.id.index ≤ b.id.index) ∧
      ∀ p, g.Contains p → (leader.id, p) ∈ s.writes plan s.activeIds ∧
        ((s.writes plan s.activeIds).map (·.2)).count p = 1
  seen : ∀ p, (s.executeAll plan s.activeIds).1.matrix.get p ≠ s.matrix.get p →
    p ∈ (s.writes plan s.activeIds).map (·.2)

variable {s t : State} {rules : Rules} {plan : Plan} {kind kind' : GroupKind} {g g' : Region}
  {b leader : Bot} {p : Position} {done : List Bot} {base : Int} {changed : Bool}

/-! ## Teams -/

theorem mem_team : b ∈ s.team plan kind g ↔ b ∈ s.activeBots ∧ plan.Joins kind g b := by
  rw [team, List.mem_filter, decide_eq_true_eq]

theorem groupMembers_eq_map_team :
    plan.groupMembers s kind g = (s.team plan kind g).map fun b => (b.id, plan.cornerOf b) := by
  rw [Plan.groupMembers, team, ← List.filterMap_eq_map, List.filterMap_filter]
  refine List.filterMap_congr fun b _ => ?_
  simp only [← Plan.any_group?_iff]
  cases hgroup : (plan.command? b.id).bind Command.group? with
  | none => rfl
  | some group =>
    obtain ⟨kind', nd, fd⟩ := group
    simp [Plan.cornerOf, hgroup]

theorem groupLeader?_eq_head? :
    plan.groupLeader? s kind g = (s.team plan kind g).head?.map (·.id) := by
  rw [Plan.groupLeader?, groupMembers_eq_map_team, List.head?_map, Option.map_map]
  rfl

theorem exists_lowest (hs : s.Seated) (hteam : s.team plan kind g ≠ []) :
    ∃ leader ∈ s.team plan kind g, plan.groupLeader? s kind g = some leader.id ∧
      ∀ b ∈ s.team plan kind g, leader.id.index ≤ b.id.index := by
  have hascending : (s.team plan kind g).Pairwise fun b b' => b.id.index < b'.id.index :=
    hs.ascending_activeBots.sublist List.filter_sublist
  rw [groupLeader?_eq_head?]
  cases hcons : s.team plan kind g with
  | nil => exact absurd hcons hteam
  | cons leader rest =>
    rw [hcons] at hascending
    refine ⟨leader, List.mem_cons_self, rfl, fun b hb => ?_⟩
    rcases List.mem_cons.1 hb with rfl | hb
    · exact Nat.le_refl _
    · exact Nat.le_of_lt ((List.pairwise_cons.1 hascending).1 b hb)

theorem team_unique (hb : b ∈ s.team plan kind g) (hb' : b ∈ s.team plan kind' g') :
    (kind', g') = (kind, g) := by
  obtain ⟨c, nd, fd, hc, hgroup, rfl⟩ := (mem_team.1 hb).2
  obtain ⟨c', nd', fd', hc', hgroup', rfl⟩ := (mem_team.1 hb').2
  obtain rfl : c = c' := Option.some.inj (hc.symm.trans hc')
  obtain ⟨rfl, rfl, rfl⟩ : kind = kind' ∧ nd = nd' ∧ fd = fd' := by
    simpa using hgroup.symm.trans hgroup'
  rfl

theorem editOf_leader (hs : s.Seated) (hleader : leader ∈ s.team plan kind g)
    (hlead : plan.groupLeader? s kind g = some leader.id) :
    s.editOf plan leader = some ⟨decide (kind = .fill), g.voxels⟩ := by
  obtain ⟨hactive, hjoins⟩ := mem_team.1 hleader
  obtain ⟨c, nd, fd, hc, hgroup, rfl⟩ := hjoins
  refine (editOf_eq_some_iff hs hactive).2 ⟨c, hc, addressed_of_group? hgroup _, ?_⟩
  intro kind' nd' fd' hgroup'
  obtain ⟨rfl, rfl, rfl⟩ : kind = kind' ∧ nd = nd' ∧ fd = fd' := by
    simpa using hgroup.symm.trans hgroup'
  exact hlead

/-! ## What the checks say of a team -/

theorem reach_subset_claimed (hs : s.Seated) (hb : b ∈ s.activeBots) {c : Command}
    (hc : plan.command? b.id = some c) : ∀ p ∈ c.reach b.position, p ∈ s.claimed plan b.id := by
  have hpos := hs.positionOf_eq hb
  intro p hp
  rw [claimed_eq hc]
  cases c <;> simp only [Command.reach, List.not_mem_nil] at hp
  case smove | lmove => simpa only [footprint, hpos] using hp
  all_goals
    simp only [footprint, hpos]
    exact List.mem_cons_of_mem _ hp

theorem reach_of_group? {c : Command} {nd fd : Displacement}
    (hgroup : c.group? = some (kind, nd, fd)) (position : Position) : c.reach position = [] := by
  cases c <;> first | rfl | cases hgroup

theorem permitsBox_of_group? {c : Command} {nd fd : Displacement}
    (hgroup : c.group? = some (kind, nd, fd)) (hpermits : s.Permits rules plan b c) :
    s.PermitsBox plan b kind nd fd := by
  cases c <;> simp only [Command.group?, Option.some.injEq, Prod.mk.injEq, reduceCtorEq] at hgroup
  all_goals
    obtain ⟨rfl, rfl, rfl⟩ := hgroup
    exact hpermits

theorem permits_of_checkPlan (hs : s.Seated)
    (hok : s.checkPlan rules plan s.activeIds = .ok ()) (hb : b ∈ s.activeBots) :
    ∃ c, plan.command? b.id = some c ∧ s.Permits rules plan b c := by
  have hall := checkBots_eq_ok_iff.1 (seq_eq_ok_iff.1 hok).1
  obtain ⟨c, hc, -, hpermits⟩ := (checkBot_eq_ok_iff hs hb).1 (hall b.id (List.mem_map_of_mem hb))
  exact ⟨c, hc, hpermits⟩

theorem permitsBox_of_team (hs : s.Seated) (hok : s.checkPlan rules plan s.activeIds = .ok ())
    (hb : b ∈ s.team plan kind g) :
    ∃ nd fd, groupRegion b.position nd fd = g ∧ s.PermitsBox plan b kind nd fd := by
  obtain ⟨hactive, hjoins⟩ := mem_team.1 hb
  obtain ⟨c, nd, fd, hc, hgroup, hregion⟩ := hjoins
  obtain ⟨c', hc', hpermits⟩ := permits_of_checkPlan hs hok hactive
  obtain rfl : c = c' := Option.some.inj (hc.symm.trans hc')
  exact ⟨nd, fd, hregion, permitsBox_of_group? hgroup hpermits⟩

theorem cornerOf_mem_corners (hb : b ∈ s.team plan kind g) : plan.cornerOf b ∈ g.corners := by
  obtain ⟨c, nd, fd, hc, hgroup, rfl⟩ := (mem_team.1 hb).2
  rw [Plan.cornerOf, hc, Option.bind_some, hgroup]
  exact Region.left_mem_corners_spanning _ _

theorem Complete.size (h : s.Complete plan kind g) :
    (s.team plan kind g).length = 2 ^ g.dimension := by
  rw [← g.length_corners, ← h.length, groupMembers_eq_map_team, List.length_map]

/-- As many bots as corners, each with one of its own, have them all. -/
theorem Complete.bijOn (h : s.Complete plan kind g) :
    Set.BijOn plan.cornerOf {b | b ∈ s.team plan kind g} {p | p ∈ g.corners} := by
  have hnodup := h.nodup
  rw [groupMembers_eq_map_team, List.map_map] at hnodup
  have hsubset : (s.team plan kind g).map plan.cornerOf ⊆ g.corners := by
    intro p hp
    obtain ⟨b, hb, rfl⟩ := List.mem_map.1 hp
    exact cornerOf_mem_corners hb
  have hperm : ((s.team plan kind g).map plan.cornerOf).Perm g.corners := by
    refine (hnodup.subperm hsubset).perm_of_length_le ?_
    rw [List.length_map, h.size, g.length_corners]
  refine ⟨fun b hb => cornerOf_mem_corners hb, List.inj_on_of_nodup_map hnodup, fun p hp => ?_⟩
  exact List.mem_map.1 (hperm.mem_iff.2 hp)

/-- Nobody but its leader claims a voxel of a box. -/
theorem not_contains_of_claimed (hs : s.Seated)
    (hok : s.checkPlan rules plan s.activeIds = .ok ()) (hleader : leader ∈ s.team plan kind g)
    (hlead : plan.groupLeader? s kind g = some leader.id) (hb : b ∈ s.activeBots)
    (hne : b ≠ leader) (hp : p ∈ s.claimed plan b.id) : ¬g.Contains p := by
  intro hcontains
  have hapart := (checkFootprints_eq_ok_iff hs).1 (seq_eq_ok_iff.1 hok).2
  have hclaimed := Legal.edit_subset_claimed hs (mem_team.1 hleader).1
    (editOf_leader hs hleader hlead) p (Region.mem_voxels.2 hcontains)
  exact hapart b hb leader (mem_team.1 hleader).1 hne p hp hclaimed

theorem secluded_of_checkPlan (hs : s.Seated)
    (hok : s.checkPlan rules plan s.activeIds = .ok ()) (hteam : s.team plan kind g ≠ []) :
    s.Secluded plan kind g := by
  obtain ⟨leader, hleader, hlead, -⟩ := exists_lowest hs hteam
  obtain ⟨hactive, hjoins⟩ := mem_team.1 hleader
  obtain ⟨nd, fd, hregion, hbox⟩ := permitsBox_of_team hs hok hleader
  refine ⟨(hregion ▸ hbox.complete).size, (hregion ▸ hbox.complete).bijOn, fun b hb => ?_,
    fun kind' g' hteam' hdiffers p hp hp' => ?_, fun b hb c hc p hp => ?_⟩
  · by_cases hne : b = leader
    · rw [hne, ← hregion]
      exact hbox.outside
    · obtain ⟨c, hc, -⟩ := permits_of_checkPlan hs hok hb
      exact not_contains_of_claimed hs hok hleader hlead hb hne (hs.position_mem_claimed hb hc)
  · -- two boxes that meet would have one leader
    obtain ⟨leader', hleader', hlead', -⟩ := exists_lowest hs hteam'
    have hne : leader ≠ leader' := by
      rintro rfl
      exact hdiffers (team_unique hleader hleader')
    have hclaimed := Legal.edit_subset_claimed hs hactive (editOf_leader hs hleader hlead) p
      (Region.mem_voxels.2 hp)
    exact not_contains_of_claimed hs hok hleader' hlead' hactive hne hclaimed hp'
  · by_cases hne : b = leader
    · obtain ⟨c', nd', fd', hc', hgroup, -⟩ := hjoins
      rw [hne] at hc
      obtain rfl : c = c' := Option.some.inj (hc.symm.trans hc')
      rw [reach_of_group? hgroup] at hp
      cases hp
    · exact not_contains_of_claimed hs hok hleader hlead hb hne
        (reach_subset_claimed hs hb hc p hp)

/-! ## What is written -/

theorem matrix_foldl_writeVoxel (value : Bool) (ps : List Position) (changed : Bool) :
    (ps.foldl (writeVoxel value) (t, changed)).1.matrix = t.matrix.setAll ps value := by
  induction ps generalizing t changed with
  | nil => rfl
  | cons p ps ih =>
    rw [List.foldl_cons, writeVoxel, Matrix.setAll, List.foldl_cons, ← Matrix.setAll]
    split
    · next hfull =>
      rw [ih, Matrix.set_eq_self hfull]
      rfl
    · exact ih true

theorem matrix_executeBot (plan : Plan) (changed : Bool) (id : BotId) :
    (executeBot plan (t, changed) id).1.matrix = t.matrix.setAll (strokes plan t id)
      ((((plan.command? id).bind (t.edit? plan id)).map (·.value)).getD false) := by
  rw [executeBot, strokes]
  cases plan.command? id with
  | none => rfl
  | some c =>
    simp only [Option.bind_some]
    cases c with
    | fusionP nd =>
      simp only [execute, edit?]
      split
      · rfl
      · simp only [fuse]
        split <;> rfl
    | fission nd m =>
      simp only [execute, edit?, spawn]
      split <;> rfl
    | fill | void | gfill | gvoid =>
      simp only [execute]
      split
      · next hnone => simp [hnone, Matrix.setAll]
      · next e he =>
        simp only [he, applyEdit, matrix_foldl_writeVoxel, Option.map_some, Option.getD_some]
    | _ => rfl

/-- What nobody writes stays as it is. -/
theorem get_foldl_executeBot (hm : t.matrix.Consistent) {ids : List BotId}
    (hp : p ∉ (writesFrom plan (t, changed) ids).map (·.2)) :
    (ids.foldl (executeBot plan) (t, changed)).1.matrix.get p = t.matrix.get p := by
  induction ids generalizing t changed with
  | nil => rfl
  | cons id ids ih =>
    rw [writesFrom, List.map_append, List.mem_append, not_or, List.map_map] at hp
    have hholds : ∀ q ∈ strokes plan t id, t.matrix.Holds q := by
      intro q hq
      rw [strokes] at hq
      split at hq
      · cases hq
      · have htaken := List.mem_takeWhile_imp hq
        simpa using htaken
    have hmatrix := matrix_executeBot (t := t) plan changed id
    have hstep : (executeBot plan (t, changed) id).1.matrix.get p = t.matrix.get p := by
      rw [hmatrix, hm.get_setAll hholds, if_neg (by simpa [Function.comp_def] using hp.1)]
    rw [List.foldl_cons, ← hstep]
    exact ih (hmatrix ▸ hm.setAll _ _) hp.2

theorem Midway.writesFrom_eq (hl : s.Legal rules plan) (h : s.Arranged) {l : List Bot} :
    ∀ {done t changed}, Midway s plan base done t changed → (∀ b ∈ done ++ l, b ∈ s.activeBots) →
      (done ++ l).Nodup → writesFrom plan (t, changed) (l.map (·.id)) =
        l.flatMap fun b => (s.writtenBy plan b).map fun p => (b.id, p) := by
  induction l with
  | nil => exact fun _ _ _ => rfl
  | cons b l ih =>
    intro done t changed hmid hactive hnodup
    have hdone : ∀ b' ∈ done, b' ∈ s.activeBots := fun b' hb' =>
      hactive b' (List.mem_append_left _ hb')
    have hb : b ∈ s.activeBots := hactive b (by simp)
    have hnew : b ∉ done := fun hmem =>
      List.disjoint_of_nodup_append hnodup hmem List.mem_cons_self
    obtain ⟨cmd, hc⟩ := (hl.covers b.id).2 (List.mem_map_of_mem hb)
    have hstrokes : strokes plan t b.id = s.writtenBy plan b := by
      rw [strokes, writtenBy, hc, Option.bind_some, hmid.edit?_eq hl h hdone hb hnew hc]
      cases he : s.editOf plan b with
      | none => rfl
      | some e =>
        refine List.takeWhile_eq_self_iff.2 fun p hp => decide_eq_true ?_
        rw [Matrix.Holds, hmid.resolution]
        exact hl.holds_edit h.toSeated hb he p hp
    have hnext := hmid.next_executeBot hl h hdone hb hnew
    rw [List.append_cons] at hactive hnodup
    rw [List.map_cons, writesFrom, hstrokes, ih hnext hactive hnodup, List.flatMap_cons]

theorem Legal.writes_eq (hl : s.Legal rules plan) (h : s.Arranged) (hm : s.matrix.Consistent) :
    s.writes plan s.activeIds =
      s.activeBots.flatMap fun b => (s.writtenBy plan b).map fun p => (b.id, p) :=
  Midway.writesFrom_eq hl h (Midway.start plan h.toSeated hm _) (fun _ hb => hb)
    h.nodup_activeBots

theorem Legal.secluded (hl : s.Legal rules plan) (h : s.Seated)
    (hteam : s.team plan kind g ≠ []) : s.Secluded plan kind g :=
  secluded_of_checkPlan h ((checkPlan_eq_ok_iff h hl.covers).2 hl) hteam

theorem Legal.attended (hl : s.Legal rules plan) (h : s.Coherent) (hm : s.matrix.Consistent)
    (hteam : s.team plan kind g ≠ []) : s.Attended plan kind g := by
  have hok := (checkPlan_eq_ok_iff h.toSeated hl.covers).2 hl
  obtain ⟨leader, hleader, hlead, hlowest⟩ := exists_lowest h.toSeated hteam
  have hactive := (mem_team.1 hleader).1
  have hedit := editOf_leader h.toSeated hleader hlead
  refine ⟨fun x hx hcontains => ?_, ⟨leader, hleader, hlowest, fun p hp => ?_⟩, fun p hne => ?_⟩
  · have hmid := hl.midway_executeAll h hm (List.Perm.refl _)
    obtain ⟨b, hb, -, hland⟩ := hmid.exists_turn hl h hx
    by_cases hne : b = leader
    · exact hland.unwritten _ (hne ▸ hedit) (Region.mem_voxels.2 hcontains)
    · exact not_contains_of_claimed h.toSeated hok hleader hlead hb hne hland.claimed hcontains
  · have hwritten : p ∈ s.writtenBy plan leader :=
      mem_writtenBy.2 ⟨_, hedit, Region.mem_voxels.2 hp⟩
    have hmap : (s.writes plan s.activeIds).map (·.2) =
        s.activeBots.flatMap (s.writtenBy plan) := by
      rw [hl.writes_eq h hm, List.map_flatMap]
      simp [Function.comp_def]
    constructor
    · rw [hl.writes_eq h hm, List.mem_flatMap]
      exact ⟨leader, hactive, List.mem_map_of_mem hwritten⟩
    · rw [hmap]
      exact List.count_eq_one_of_mem (hl.nodup_written h.toSeated)
        (List.mem_flatMap.2 ⟨leader, hactive, hwritten⟩)
  · by_contra hunwritten
    exact hne (get_foldl_executeBot (t := s.charge _) hm hunwritten)

/-- All teams in the plan that a step reads and carries out are secluded and attended. -/
theorem groups_of_runStep {σ : Type} [CommandSource σ] {src src' : σ}
    {result : Except StepError StepReport} (h : s.Coherent) (hm : s.matrix.Consistent)
    (hstep : s.runStep rules src = (result, t, src')) (hdone : CarriedOut result) :
    ∃ plan, readPlan s.activeIds Plan.empty src = (.ok plan, src') ∧
      (s.executeAll plan s.activeIds).1 = t ∧ ∀ kind g, s.team plan kind g ≠ [] →
        s.Secluded plan kind g ∧ s.Attended plan kind g := by
  obtain ⟨plan, hread, hl, ht⟩ := exists_legal_of_runStep h.toSeated hstep hdone
  exact ⟨plan, hread, ht, fun kind g hteam =>
    ⟨hl.secluded h.toSeated hteam, hl.attended h hm hteam⟩⟩

end State

end VoxelSwarm
