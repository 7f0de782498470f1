import VoxelSwarm.Proofs.Step.Census
import VoxelSwarm.Proofs.Step.Order

/-!
# All commands at once

`Outcome` says what a plan makes of a state as if all bots acted at the same moment: every clause
looks at the state before the step only. It says the same as `Midway` does when all bots have had
their turns (`Midway.outcome`, `Outcome.midway`), so carrying out a legal plan one bot after another
leaves the one state that `Outcome` describes.
-/

namespace VoxelSwarm

namespace State

/-- Some command of the plan asks for `value` in the voxel `p`. -/
def Addresses (s : State) (plan : Plan) (value : Bool) (p : Position) : Prop :=
  ∃ b ∈ s.activeBots, ∃ c, plan.command? b.id = some c ∧
    ∃ e, c.addressed b.position = some e ∧ e.value = value ∧ p ∈ e.voxels

def Spawns (s : State) (plan : Plan) (k : BotId) : Prop :=
  ∃ b ∈ s.activeBots, ∃ nd m, plan.command? b.id = some (.fission nd m) ∧ b.seeds.head? = some k

/-- What the command of a bot leaves in its slot, and in that of its partner or of its child. -/
def Leaves (s : State) (plan : Plan) (b : Bot) (t : State) : Command → Prop
  | .halt => t.bot? b.id = some { b with seeds := [], active := false }
  | .smove lld => t.bot? b.id = some { b with position := b.position + lld }
  | .lmove sld₁ sld₂ => t.bot? b.id = some { b with position := b.position + (sld₁ + sld₂) }
  | .fusionP _ => ∃ c ∈ s.activeBots, plan.Pairs b c ∧
      t.bot? b.id = some { b with seeds := Bot.sortSeeds (b.seeds ++ c.id :: c.seeds) } ∧
      t.bot? c.id = some { c with seeds := [], active := false }
  | .fusionS _ => (∃ c ∈ s.activeBots, plan.Pairs c b) ∧
      t.bot? b.id = some { b with seeds := [], active := false }
  | .fission nd m => ∃ child, b.seeds.head? = some child ∧
      t.bot? b.id = some { b with seeds := b.seeds.drop (m.toNat + 1) } ∧
      t.bot? child = some
        ⟨child, b.position + nd, Bot.sortSeeds ((b.seeds.drop 1).take m.toNat), true⟩
  | .wait | .flip | .fill _ | .void _ | .gfill _ _ | .gvoid _ _ => t.bot? b.id = some b

/-- What a plan makes of a state, all commands at once. -/
structure Outcome (s : State) (plan : Plan) (t : State) : Prop where
  seated : t.Seated
  leaves : ∀ b ∈ s.activeBots, ∀ c, plan.command? b.id = some c → s.Leaves plan b t c
  kept : ∀ k, k ∉ s.activeIds → ¬s.Spawns plan k → t.bot? k = s.bot? k
  consistent : t.matrix.Consistent
  resolution : t.matrix.resolution = s.matrix.resolution
  full_iff : ∀ p, t.matrix.get p = true ↔
    s.Addresses plan true p ∨ s.matrix.get p = true ∧ ¬s.Addresses plan false p
  target : t.target = s.target
  harmonics : t.harmonics =
    Harmonics.flipped^[s.activeBots.countP fun b => plan.command? b.id = some .flip] s.harmonics
  halted : t.halted = true ↔
    s.halted = true ∨ ∃ b ∈ s.activeBots, plan.command? b.id = some .halt
  energy : t.energy =
    s.energy + Energy.passive s s.activeCount + (s.activeBots.map (s.costOf plan)).sum

variable {s t t' : State} {rules : Rules} {plan : Plan} {b c : Bot} {p : Position} {value : Bool}
  {base : Int} {changed : Bool}

/-! ## Voxels -/

theorem addressed_of_group? {cmd : Command} {kind : GroupKind} {nd fd : Displacement}
    (h : cmd.group? = some (kind, nd, fd)) (p : Position) :
    cmd.addressed p = some ⟨decide (kind = .fill), (groupRegion p nd fd).voxels⟩ := by
  cases cmd <;> simp only [Command.group?, Option.some.injEq, Prod.mk.injEq, reduceCtorEq] at h
  all_goals
    obtain ⟨rfl, rfl, rfl⟩ := h
    rfl

theorem exists_leader (hb : b ∈ s.activeBots) {cmd : Command}
    (hc : plan.command? b.id = some cmd) {kind : GroupKind} {nd fd : Displacement}
    (hgroup : cmd.group? = some (kind, nd, fd)) :
    ∃ b' ∈ s.activeBots, ∃ cmd' nd' fd', plan.command? b'.id = some cmd' ∧
      cmd'.group? = some (kind, nd', fd') ∧
      groupRegion b'.position nd' fd' = groupRegion b.position nd fd ∧
      plan.groupLeader? s kind (groupRegion b.position nd fd) = some b'.id := by
  have hmem : (b.id, b.position + nd) ∈
      plan.groupMembers s kind (groupRegion b.position nd fd) := by
    rw [Plan.groupMembers, List.mem_filterMap]
    exact ⟨b, hb, by simp [hc, hgroup]⟩
  obtain ⟨first, rest, hmembers⟩ := List.exists_cons_of_ne_nil (List.ne_nil_of_mem hmem)
  -- the leader is the first member that the scan finds
  have hfirst : first ∈ plan.groupMembers s kind (groupRegion b.position nd fd) := by
    rw [hmembers]
    exact List.mem_cons_self
  rw [Plan.groupMembers, List.mem_filterMap] at hfirst
  obtain ⟨b', hb', hfound⟩ := hfirst
  simp only [Option.bind_eq_bind, Option.bind_eq_some_iff] at hfound
  obtain ⟨⟨kind', nd', fd'⟩, ⟨cmd', hc', hgroup'⟩, hfound⟩ := hfound
  simp only [Option.ite_none_right_eq_some, Option.some.injEq] at hfound
  obtain ⟨⟨rfl, hregion⟩, rfl⟩ := hfound
  refine ⟨b', hb', cmd', nd', fd', hc', hgroup', hregion, ?_⟩
  rw [Plan.groupLeader?, hmembers]
  rfl

theorem exists_editOf (hs : s.Seated) (hb : b ∈ s.activeBots) {cmd : Command}
    (hc : plan.command? b.id = some cmd) {e : Edit} (he : cmd.addressed b.position = some e) :
    ∃ b' ∈ s.activeBots, s.editOf plan b' = some e := by
  cases hgroup : cmd.group? with
  | none =>
    refine ⟨b, hb, (editOf_eq_some_iff hs hb).2 ⟨cmd, hc, he, ?_⟩⟩
    simp [hgroup]
  | some g =>
    obtain ⟨kind, nd, fd⟩ := g
    obtain ⟨b', hb', cmd', nd', fd', hc', hgroup', hregion, hlead⟩ :=
      exists_leader hb hc hgroup
    refine ⟨b', hb', (editOf_eq_some_iff hs hb').2 ⟨cmd', hc', ?_, ?_⟩⟩
    · rw [addressed_of_group? hgroup', hregion, ← addressed_of_group? hgroup, he]
    · intro kind₁ nd₁ fd₁ heq
      obtain ⟨rfl, rfl, rfl⟩ : kind = kind₁ ∧ nd' = nd₁ ∧ fd' = fd₁ := by
        simpa using hgroup'.symm.trans heq
      rw [hregion, hlead]

theorem addresses_iff (hs : s.Seated) :
    s.Addresses plan value p ↔
      ∃ b ∈ s.activeBots, ∃ e, s.editOf plan b = some e ∧ e.value = value ∧ p ∈ e.voxels := by
  constructor
  · rintro ⟨b, hb, cmd, hc, e, he, hvalue, hp⟩
    obtain ⟨b', hb', he'⟩ := exists_editOf hs hb hc he
    exact ⟨b', hb', e, he', hvalue, hp⟩
  · rintro ⟨b, hb, e, he, hvalue, hp⟩
    obtain ⟨cmd, hc, he, -⟩ := (editOf_eq_some_iff hs hb).1 he
    exact ⟨b, hb, cmd, hc, e, he, hvalue, hp⟩

/-- No voxel is asked to be full and void at once. -/
theorem Legal.value_unique (hl : s.Legal rules plan) (hs : s.Seated) {value' : Bool}
    (h : s.Addresses plan value p) (h' : s.Addresses plan value' p) : value = value' := by
  obtain ⟨b, hb, e, he, rfl, hp⟩ := (addresses_iff hs).1 h
  obtain ⟨b', hb', e', he', rfl, hp'⟩ := (addresses_iff hs).1 h'
  -- two commands that ask for one voxel are one turn's work, or their footprints would meet
  by_cases heq : b = b'
  · subst heq
    rw [Option.some.inj (he.symm.trans he')]
  · have hclaimed := Legal.edit_subset_claimed hs hb he p hp
    exact absurd hp' (hl.not_mem_edit hs hb hb' heq hclaimed he')

theorem Midway.get_iff (hmid : Midway s plan base s.activeBots t changed)
    (hl : s.Legal rules plan) (hs : s.Seated) (p : Position) :
    t.matrix.get p = true ↔
      s.Addresses plan true p ∨ s.matrix.get p = true ∧ ¬s.Addresses plan false p := by
  by_cases hedit : ∃ value, s.Addresses plan value p
  · obtain ⟨value, haddr⟩ := hedit
    obtain ⟨b, hb, e, he, rfl, hp⟩ := (addresses_iff hs).1 haddr
    rw [hmid.written b hb e he p hp]
    cases hvalue : e.value with
    | true => exact ⟨fun _ => Or.inl (hvalue ▸ haddr), fun _ => rfl⟩
    | false =>
      rw [hvalue] at haddr
      refine ⟨fun h => (nomatch h), fun h => ?_⟩
      rcases h with h | h
      · exact hl.value_unique hs haddr h
      · exact absurd haddr h.2
  · have hnot : ∀ value, ¬s.Addresses plan value p := fun value h => hedit ⟨value, h⟩
    rw [hmid.unwritten p fun b hb e he hp => hnot _ ((addresses_iff hs).2 ⟨b, hb, e, he, rfl, hp⟩)]
    simp [hnot]

theorem Outcome.get_eq (ho : s.Outcome plan t) (hl : s.Legal rules plan) (hs : s.Seated)
    (hb : b ∈ s.activeBots) {e : Edit} (he : s.editOf plan b = some e) (hp : p ∈ e.voxels) :
    t.matrix.get p = e.value := by
  have haddr : s.Addresses plan e.value p := (addresses_iff hs).2 ⟨b, hb, e, he, rfl, hp⟩
  rw [Bool.eq_iff_iff, ho.full_iff]
  constructor
  · rintro (h | h)
    · exact hl.value_unique hs haddr h
    · exact Bool.eq_true_of_not_eq_false fun hvalue => h.2 (hvalue ▸ haddr)
  · exact fun hvalue => Or.inl (hvalue ▸ haddr)

theorem Outcome.get_eq_of_not_addresses (ho : s.Outcome plan t)
    (hp : ∀ value, ¬s.Addresses plan value p) : t.matrix.get p = s.matrix.get p := by
  rw [Bool.eq_iff_iff, ho.full_iff]
  simp [hp]

/-! ## Slots -/

theorem Midway.leaves (hmid : Midway s plan base s.activeBots t changed)
    (hl : s.Legal rules plan) (h : s.Arranged) (hb : b ∈ s.activeBots) {cmd : Command}
    (hc : plan.command? b.id = some cmd) : s.Leaves plan b t cmd := by
  have hrew := hmid.rewritten b hb
  cases cmd with
  | fusionP nd =>
    obtain ⟨c, hcmem, hpairs, heq⟩ := hl.rewritten_fusionP h hb hc
    rw [heq] at hrew
    exact ⟨c, hcmem, hpairs, hrew (b.absorb c.id c.seeds) List.mem_cons_self,
      hrew c.retire (by simp)⟩
  | fusionS nd =>
    obtain ⟨-, c, hcmem, hpairs⟩ := hl.permits b hb _ hc
    have hretire := hl.retire_mem_rewritten h hcmem hb hpairs
    exact ⟨⟨c, hcmem, hpairs⟩, hmid.rewritten c hcmem b.retire hretire⟩
  | fission nd m =>
    obtain ⟨child, rest, hseeds, -, heq⟩ := hl.rewritten_fission hb hc
    rw [heq] at hrew
    refine ⟨child, by rw [hseeds]; rfl, ?_, ?_⟩
    · rw [hseeds]
      exact hrew { b with seeds := rest.drop m.toNat } List.mem_cons_self
    · rw [hseeds]
      exact hrew (Bot.activeAt child (b.position + nd) (rest.take m.toNat)) (by simp)
  | lmove sld₁ sld₂ =>
    simp only [State.rewritten, hc, List.mem_singleton, forall_eq] at hrew
    rw [Leaves, ← Position.add_add]
    exact hrew
  | _ =>
    simp only [State.rewritten, hc, List.mem_singleton, forall_eq] at hrew
    exact hrew

theorem described_of_rewritten (hl : s.Legal rules plan) (h : s.Arranged)
    (hb : b ∈ s.activeBots) {x : Bot} (hx : x ∈ s.rewritten plan b) :
    x.id ∈ s.activeIds ∨ s.Spawns plan x.id := by
  have hmem {y : Bot} (hy : y ∈ s.activeBots) (hid : x.id = y.id) : x.id ∈ s.activeIds :=
    hid ▸ List.mem_map_of_mem hy
  have hturn := hl.rewrites h hb
  generalize s.rewritten plan b = l at hturn hx
  cases hturn with
  | stands _ y _ _ hid _ _ => exact Or.inl (hmem hb (List.mem_singleton.1 hx ▸ hid))
  | halts => exact Or.inl (hmem hb (List.mem_singleton.1 hx ▸ rfl))
  | absorbs nd c _ hcmem _ =>
    rcases List.mem_cons.1 hx with rfl | hx
    · exact Or.inl (hmem hb rfl)
    · exact Or.inl (hmem hcmem (List.mem_singleton.1 hx ▸ rfl))
  | absorbed => cases hx
  | splits nd m child rest hc hseeds =>
    rcases List.mem_cons.1 hx with rfl | hx
    · exact Or.inl (hmem hb rfl)
    · obtain rfl := List.mem_singleton.1 hx
      exact Or.inr ⟨b, hb, nd, m, hc, by rw [hseeds]; rfl⟩

theorem exists_rewritten_of_described (hl : s.Legal rules plan) (h : s.Arranged) {k : BotId}
    (hk : k ∈ s.activeIds ∨ s.Spawns plan k) :
    ∃ b ∈ s.activeBots, ∃ x ∈ s.rewritten plan b, x.id = k := by
  rcases hk with hk | ⟨b, hb, nd, m, hc, hseeds⟩
  · obtain ⟨b, hb, rfl⟩ := List.mem_map.1 hk
    exact hl.exists_rewritten h hb
  · obtain ⟨child, rest, hseeds', -, heq⟩ := hl.rewritten_fission hb hc
    rw [hseeds', List.head?_cons] at hseeds
    exact ⟨b, hb, Bot.activeAt child (b.position + nd) (rest.take m.toNat), by simp [heq],
      Option.some.inj hseeds⟩

theorem Outcome.rewritten (ho : s.Outcome plan t) (hl : s.Legal rules plan) (h : s.Arranged)
    (hb : b ∈ s.activeBots) {x : Bot} (hx : x ∈ s.rewritten plan b) : t.bot? x.id = some x := by
  obtain ⟨cmd, hc⟩ := (hl.covers b.id).2 (List.mem_map_of_mem hb)
  have hleaves := ho.leaves b hb cmd hc
  cases cmd with
  | fusionP nd =>
    obtain ⟨c, hcmem, hpairs, heq⟩ := hl.rewritten_fusionP h hb hc
    obtain ⟨c', hcmem', hpairs', hb', hc'⟩ := hleaves
    -- the partner that the outcome names is the one that the turn absorbs
    obtain rfl := pairs_right_unique h hcmem hcmem' hpairs hpairs'
    rw [heq] at hx
    rcases List.mem_cons.1 hx with rfl | hx
    · exact hb'
    · obtain rfl := List.mem_singleton.1 hx
      exact hc'
  | fusionS nd => simp [State.rewritten, hc] at hx
  | fission nd m =>
    obtain ⟨child, rest, hseeds, -, heq⟩ := hl.rewritten_fission hb hc
    obtain ⟨child', hhead, hb', hchild⟩ := hleaves
    rw [hseeds] at hhead hb' hchild
    obtain rfl : child = child' := Option.some.inj hhead
    rw [heq] at hx
    rcases List.mem_cons.1 hx with rfl | hx
    · exact hb'
    · obtain rfl := List.mem_singleton.1 hx
      exact hchild
  | lmove sld₁ sld₂ =>
    simp only [State.rewritten, hc, List.mem_singleton] at hx
    rw [hx, Position.add_add]
    exact hleaves
  | _ =>
    simp only [State.rewritten, hc, List.mem_singleton] at hx
    rw [hx]
    exact hleaves

/-! ## The two descriptions -/

theorem Midway.outcome (hmid : Midway s plan (s.energy + Energy.passive s s.activeCount)
    s.activeBots t changed) (hl : s.Legal rules plan) (h : s.Arranged) : s.Outcome plan t where
  seated := hmid.seated
  leaves b hb cmd hc := hmid.leaves hl h hb hc
  kept k hk hspawn := by
    refine hmid.kept k fun b hb x hx heq => ?_
    rcases described_of_rewritten hl h hb hx with hmem | hmem
    · exact hk (heq ▸ hmem)
    · exact hspawn (heq ▸ hmem)
  consistent := hmid.consistent
  resolution := hmid.resolution
  full_iff := hmid.get_iff hl h.toSeated
  target := hmid.target
  harmonics := hmid.harmonics
  halted := hmid.halted
  energy := hmid.energy

theorem Outcome.midway (ho : s.Outcome plan t) (hl : s.Legal rules plan) (h : s.Arranged)
    (hchanged : changed = true ↔ ∃ b ∈ s.activeBots, ∃ e, s.editOf plan b = some e ∧
      ∃ p ∈ e.voxels, s.matrix.get p ≠ e.value) :
    Midway s plan (s.energy + Energy.passive s s.activeCount) s.activeBots t changed where
  seated := ho.seated
  rewritten b hb x hx := ho.rewritten hl h hb hx
  kept k hk := by
    have hnot : ¬(k ∈ s.activeIds ∨ s.Spawns plan k) := by
      intro hor
      obtain ⟨b, hb, x, hx, heq⟩ := exists_rewritten_of_described hl h hor
      exact hk b hb x hx heq
    exact ho.kept k (fun hmem => hnot (Or.inl hmem)) fun hspawn => hnot (Or.inr hspawn)
  target := ho.target
  consistent := ho.consistent
  resolution := ho.resolution
  written b hb e he p hp := ho.get_eq hl h.toSeated hb he hp
  unwritten p hp := by
    refine ho.get_eq_of_not_addresses fun value haddr => ?_
    obtain ⟨b, hb, e, he, -, hmem⟩ := (addresses_iff h.toSeated).1 haddr
    exact hp b hb e he hmem
  changed := hchanged
  energy := ho.energy
  harmonics := ho.harmonics
  halted := ho.halted

/-- Carrying out a plan that has passed the checks, bot by bot, leaves exactly what the plan makes
of the state when all commands are carried out at once. -/
theorem executeAll_eq_iff_outcome (h : s.Coherent) (hm : s.matrix.Consistent)
    (hcovers : plan.Covers s) (hok : s.checkPlan rules plan s.activeIds = .ok ()) (t : State) :
    (s.executeAll plan s.activeIds).1 = t ↔ s.Outcome plan t := by
  have hl := (checkPlan_eq_ok_iff h.toSeated hcovers).1 hok
  have hmid := hl.midway_executeAll h hm (List.Perm.refl _)
  constructor
  · rintro rfl
    exact hmid.outcome hl h
  · intro ho
    exact (hmid.unique (ho.midway hl h hmid.changed) (List.Perm.refl _)).1

theorem outcome_crew : crew.Outcome crewPlan (crew.executeAll crewPlan crew.activeIds).1 :=
  (executeAll_eq_iff_outcome crew_coherent
    (Matrix.Consistent.empty 3) crew_covers crew_checkPlan _).1 rfl

end State

end VoxelSwarm
