import VoxelSwarm.Proofs.Step.Advance
import VoxelSwarm.Proofs.Step.Census

/-!
# What a step keeps

A bot that is active after a step stands in a voxel that its own turn has claimed, which was free
and which nobody has written (`Legal.landing`). With the census of identifiers this makes a coherent
state of a coherent state (`Midway.coherent`), whatever the rules are. Under low harmonics nothing
floats either, if every step looks for it: the step that need not look has changed nothing
(`Midway.matrix_eq_of_unchanged`).
-/

namespace VoxelSwarm

namespace State

variable {s t : State} {rules : Rules} {plan : Plan} {b b' x y : Bot} {base : Int} {changed : Bool}

/-! ## Where bots end up -/

/-- Where a bot that is active after the turn of `b` stands. -/
structure Landing (s : State) (plan : Plan) (b x : Bot) : Prop where
  claimed : x.position ∈ s.claimed plan b.id
  free : s.Free x.position
  unwritten : ∀ e, s.editOf plan b = some e → x.position ∉ e.voxels

namespace Legal

theorem landing_of_stays (hl : s.Legal rules plan) (h : s.Coherent) (hb : b ∈ s.activeBots)
    (hpos : x.position = b.position) : s.Landing plan b x := by
  refine ⟨?_, ?_, fun e he => ?_⟩
  · rw [hpos]
    exact hl.position_mem_claimed h.toSeated hb
  · rw [hpos]
    exact ⟨h.inside b hb, h.void b hb⟩
  · obtain ⟨cmd, hc, haddr, -⟩ := (editOf_eq_some_iff h.toSeated hb).1 he
    rw [hpos]
    exact hl.position_not_addressed hb hc haddr

theorem editOf_eq_none (hs : s.Seated) (hb : b ∈ s.activeBots) {cmd : Command}
    (hc : plan.command? b.id = some cmd) (haddr : cmd.addressed b.position = none) :
    s.editOf plan b = none := by
  by_contra hsome
  obtain ⟨e, he⟩ := Option.ne_none_iff_exists'.1 hsome
  obtain ⟨cmd', hc', haddr', -⟩ := (editOf_eq_some_iff hs hb).1 he
  obtain rfl : cmd = cmd' := Option.some.inj (hc.symm.trans hc')
  rw [haddr] at haddr'
  cases haddr'

/-- Whoever is active after a turn stands where nothing is in the way. -/
theorem landing (hl : s.Legal rules plan) (h : s.Coherent) (hb : b ∈ s.activeBots)
    (hx : x ∈ s.rewritten plan b) (hactive : x.active = true) : s.Landing plan b x := by
  obtain ⟨cmd, hc⟩ := (hl.covers b.id).2 (List.mem_map_of_mem hb)
  have hpermits := hl.permits b hb cmd hc
  have hvalid := hl.valid b hb cmd hc
  have hpos := h.positionOf_eq hb
  have hclaimed := claimed_eq (s := s) hc
  have hquiet (haddr : cmd.addressed b.position = none) (e : Edit)
      (he : s.editOf plan b = some e) : x.position ∉ e.voxels := by
    rw [editOf_eq_none h.toSeated hb hc haddr] at he
    cases he
  cases cmd with
  | halt =>
    simp only [rewritten, hc, List.mem_singleton] at hx
    rw [hx] at hactive
    cases hactive
  | smove lld =>
    simp only [rewritten, hc, List.mem_singleton] at hx
    have hlinear : lld.Linear := (hvalid (.longLinear, lld) (by simp [Command.arguments])).1
    have hstop := stop_mem_straightPath b.position hlinear
    refine ⟨?_, ?_, hquiet rfl⟩
    · rw [hclaimed, hx]
      simpa only [footprint, hpos] using hstop
    · rw [hx]
      exact hpermits _ hstop
  | lmove sld₁ sld₂ =>
    simp only [rewritten, hc, List.mem_singleton] at hx
    have hfirst : sld₁.Linear := (hvalid (.shortLinear, sld₁) (by simp [Command.arguments])).1
    have hsecond : sld₂.Linear := (hvalid (.shortLinear, sld₂) (by simp [Command.arguments])).1
    have hstop : b.position + sld₁ + sld₂ ∈ bentPath b.position sld₁ sld₂ :=
      (mem_bentPath hfirst).2 (Or.inr (stop_mem_straightPath _ hsecond))
    refine ⟨?_, ?_, hquiet rfl⟩
    · rw [hclaimed, hx]
      simpa only [footprint, hpos] using hstop
    · rw [hx]
      exact hpermits _ hstop
  | fusionP nd =>
    obtain ⟨c, -, -, heq⟩ := hl.rewritten_fusionP h hb hc
    rw [heq] at hx
    rcases List.mem_cons.1 hx with rfl | hx
    · exact hl.landing_of_stays h hb rfl
    · obtain rfl := List.mem_singleton.1 hx
      cases hactive
  | fusionS nd => simp [rewritten, hc] at hx
  | fission nd m =>
    obtain ⟨child, rest, -, -, heq⟩ := hl.rewritten_fission hb hc
    rw [heq] at hx
    rcases List.mem_cons.1 hx with rfl | hx
    · exact hl.landing_of_stays h hb rfl
    · obtain rfl := List.mem_singleton.1 hx
      refine ⟨?_, hpermits.1, hquiet rfl⟩
      rw [hclaimed]
      simp [footprint, hpos, Bot.activeAt]
  | _ =>
    simp only [rewritten, hc, List.mem_singleton] at hx
    exact hl.landing_of_stays h hb (congrArg Bot.position hx)

theorem exists_active (hl : s.Legal rules plan) (h : s.Coherent) (hb : b ∈ s.activeBots)
    (hhalt : plan.command? b.id ≠ some .halt)
    (hstays : ∀ nd, plan.command? b.id ≠ some (.fusionS nd)) :
    ∃ x ∈ s.rewritten plan b, x.active = true := by
  have hactive := active_of_mem hb
  have hturn := hl.rewrites h hb
  generalize s.rewritten plan b = l at hturn
  cases hturn with
  | stands _ x _ _ _ _ hsame => exact ⟨x, List.mem_cons_self, hsame.trans hactive⟩
  | halts hc => exact absurd hc hhalt
  | absorbs nd c => exact ⟨b.absorb c.id c.seeds, List.mem_cons_self, hactive⟩
  | absorbed nd c hc => exact absurd hc (hstays nd)
  | splits nd m child rest =>
    exact ⟨{ b with seeds := rest.drop m.toNat }, List.mem_cons_self, hactive⟩

theorem eq_of_landing_eq (hl : s.Legal rules plan) (h : s.Coherent) (hb : b ∈ s.activeBots)
    (hb' : b' ∈ s.activeBots) (hx : x ∈ s.rewritten plan b) (hy : y ∈ s.rewritten plan b')
    (hxactive : x.active = true) (hyactive : y.active = true) (hpos : x.position = y.position) :
    x = y := by
  have hxland := hl.landing h hb hx hxactive
  have hyland := hl.landing h hb' hy hyactive
  obtain rfl : b = b' := by
    by_contra hne
    exact hl.apart b hb b' hb' hne _ hxland.claimed (hpos ▸ hyland.claimed)
  have hturn := hl.rewrites h hb
  generalize s.rewritten plan b = l at hturn hx hy
  cases hturn with
  | absorbs nd c =>
    simp only [List.mem_cons, List.not_mem_nil, or_false] at hx hy
    have hretired : c.retire.active ≠ true := Bool.false_ne_true
    rcases hx with rfl | rfl
    · rcases hy with rfl | rfl
      · rfl
      · exact absurd hyactive hretired
    · exact absurd hxactive hretired
  | absorbed => cases hx
  | splits nd m child rest hc =>
    have hnear : nd.Near := hl.valid b hb _ hc (.near, nd) (by simp [Command.arguments])
    simp only [List.mem_cons, List.not_mem_nil, or_false] at hx hy
    rcases hx with rfl | rfl <;> rcases hy with rfl | rfl
    · rfl
    · exact absurd hpos.symm (hnear.add_ne _)
    · exact absurd hpos (hnear.add_ne _)
    · rfl
  | _ => rw [List.mem_singleton.1 hx, List.mem_singleton.1 hy]

end Legal

/-! ## Coherence -/

namespace Midway

section Coherence

variable (hmid : Midway s plan base s.activeBots t changed) (hl : s.Legal rules plan)
  (h : s.Coherent)
include hmid hl h

theorem exists_turn (hx : x ∈ t.activeBots) :
    ∃ b ∈ s.activeBots, x ∈ s.rewritten plan b ∧ s.Landing plan b x := by
  obtain ⟨hactive, b, hb, hmem⟩ := (hmid.mem_activeBots_iff hl h).1 hx
  exact ⟨b, hb, hmem, hl.landing h hb hmem hactive⟩

theorem get_position (hx : x ∈ t.activeBots) : t.matrix.get x.position = false := by
  obtain ⟨b, hb, -, hland⟩ := hmid.exists_turn hl h hx
  rw [hmid.unwritten x.position fun b' hb' e he => ?_]
  · exact hland.free.2
  · by_cases heq : b = b'
    · exact hland.unwritten e (heq ▸ he)
    · exact hl.not_mem_edit h.toSeated hb hb' heq hland.claimed he

theorem apart : (t.activeBots.map (·.position)).Nodup := by
  refine hmid.seated.nodup_activeBots.map_on fun x hx y hy hpos => ?_
  obtain ⟨hxactive, b, hb, hxmem⟩ := (hmid.mem_activeBots_iff hl h).1 hx
  obtain ⟨hyactive, b', hb', hymem⟩ := (hmid.mem_activeBots_iff hl h).1 hy
  exact hl.eq_of_landing_eq h hb hb' hxmem hymem hxactive hyactive hpos

theorem mem_identifiers {k : BotId} (hk : k ∈ t.identifiers) :
    k ∈ s.identifiers :=
  Multiset.mem_coe.1 (Multiset.mem_of_le (hmid.holdings_le hl h) (Multiset.mem_coe.2 hk))

theorem activity : t.halted = true ↔ t.activeBots = [] := by
  rw [hmid.halted]
  constructor
  · rintro (hhalted | ⟨b, hb, hc⟩)
    · refine List.eq_nil_iff_forall_not_mem.2 fun x hx => ?_
      obtain ⟨b, hb, -⟩ := hmid.exists_turn hl h hx
      rw [h.activity.1 hhalted] at hb
      cases hb
    · have halone := (hl.permits b hb _ hc).alone
      refine List.eq_nil_iff_forall_not_mem.2 fun x hx => ?_
      obtain ⟨hactive, b', hb', hmem⟩ := (hmid.mem_activeBots_iff hl h).1 hx
      obtain rfl : b' = b := by simpa [halone] using hb'
      simp only [State.rewritten, hc, List.mem_singleton] at hmem
      rw [hmem] at hactive
      cases hactive
  · intro hnone
    by_contra hor
    push Not at hor
    obtain ⟨hhalted, hhalts⟩ := hor
    obtain ⟨b, hb⟩ := List.exists_mem_of_ne_nil _ fun hnil => hhalted (h.activity.2 hnil)
    -- if `b` is absorbed, the bot that absorbs it stays
    obtain ⟨b', hb', hstays⟩ : ∃ b' ∈ s.activeBots,
        ∀ nd, plan.command? b'.id ≠ some (.fusionS nd) := by
      by_cases hfused : ∃ nd, plan.command? b.id = some (.fusionS nd)
      · obtain ⟨nd, hc⟩ := hfused
        obtain ⟨-, b', hb', hpairs⟩ := hl.permits b hb _ hc
        obtain ⟨nd', hnd', -⟩ := hpairs.1
        exact ⟨b', hb', by simp [hnd']⟩
      · push Not at hfused
        exact ⟨b, hb, hfused⟩
    obtain ⟨x, hx, hactive⟩ := hl.exists_active h hb' (hhalts b' hb') hstays
    have hmem := (hmid.mem_activeBots_iff hl h).2 ⟨hactive, b', hb', hx⟩
    rw [hnone] at hmem
    cases hmem

/-- A step keeps all that makes sense but for floating matter. -/
theorem coherent : t.Coherent where
  toSeated := hmid.seated
  reserved x hx := by
    have hk := hmid.mem_identifiers hl h (Arranged.mem_identifiers.2 ⟨x, hx, Or.inl rfl⟩)
    exact Nat.ne_of_gt (h.arranged.valid_of_mem hk).1
  resolution := by rw [hmid.resolution, hmid.target, h.resolution]
  inside x hx := by
    obtain ⟨b, hb, -, hland⟩ := hmid.exists_turn hl h hx
    rw [Matrix.Holds, hmid.resolution]
    exact hland.free.1
  void x hx := hmid.get_position hl h hx
  apart := hmid.apart hl h
  seeds x hx k hk :=
    h.arranged.valid_of_mem
      (hmid.mem_identifiers hl h (Arranged.mem_identifiers.2 ⟨x, hx, Or.inr hk⟩))
  identifiers := Multiset.coe_nodup.1
    (Multiset.nodup_of_le (hmid.holdings_le hl h) (Multiset.coe_nodup.2 h.identifiers))
  activity := hmid.activity hl h

end Coherence

/-! ## Grounding -/

theorem matrix_eq_of_unchanged (hmid : Midway s plan base s.activeBots t changed)
    (hm : s.matrix.Consistent) (hchanged : changed = false) : t.matrix = s.matrix := by
  refine hmid.consistent.ext hm hmid.resolution fun p => ?_
  by_cases hp : ∃ b ∈ s.activeBots, ∃ e, s.editOf plan b = some e ∧ p ∈ e.voxels
  · obtain ⟨b, hb, e, he, hp⟩ := hp
    rw [hmid.written b hb e he p hp]
    by_contra hne
    have htrue := hmid.changed.2 ⟨b, hb, e, he, p, hp, Ne.symm hne⟩
    rw [hchanged] at htrue
    cases htrue
  · push Not at hp
    exact hmid.unwritten p hp

end Midway

end State

end VoxelSwarm
