import Mathlib.Algebra.Order.BigOperators.Group.List
import VoxelSwarm.Proofs.Step.Midway

/-!
# Who is there after a step

The slots that a step rewrites, taken together, are told apart by their identifiers
(`Legal.nodup_rewritten`). So a bot is active after the step exactly when somebody's turn has left
it active (`Midway.mem_activeBots_iff`), and what is added up over all slots moves by what the
rewritten ones gain (`Midway.total_eq`): identifiers are handed on and never doubled
(`Midway.holdings_eq`), and the number of active bots moves by one for each fission, fusion and halt
(`Midway.activeCount_eq`).
-/

namespace VoxelSwarm

namespace State

/-- The identifiers that a slot takes: none while it is not active. -/
def holdings (b : Bot) : Multiset BotId := if b.active then ↑(b.id :: b.seeds) else 0

def before (s : State) (b : Bot) : Bot := (s.bot? b.id).getD b

def presence (b : Bot) : Int := if b.active then 1 else 0

/-- By how many bots the command of a bot makes the swarm larger. -/
def grown (plan : Plan) (b : Bot) : Int := ((plan.command? b.id).map Command.growth).getD 0

variable {s t : State} {rules : Rules} {plan : Plan} {b b' c x : Bot} {base : Int}
  {changed : Bool}

/-! ## Totals over the active bots -/

theorem sum_map_active {M : Type} [AddCommMonoid M] (f : Bot → M) (l : List Bot) :
    (l.map fun b => if b.active then f b else 0).sum = ((l.filter (·.active)).map f).sum := by
  induction l with
  | nil => rfl
  | cons b l ih =>
    rw [List.map_cons, List.sum_cons, ih]
    cases hactive : b.active with
    | true => rw [List.filter_cons_of_pos hactive, List.map_cons, List.sum_cons, if_pos rfl]
    | false =>
      rw [List.filter_cons_of_neg (by simp [hactive]), if_neg Bool.false_ne_true, zero_add]

theorem sum_map_indicator {α : Type} (p : α → Prop) [DecidablePred p] (l : List α) :
    (l.map fun a => if p a then (1 : Int) else 0).sum = l.countP p := by
  induction l with
  | nil => rfl
  | cons a l ih =>
    rw [List.map_cons, List.sum_cons, ih, List.countP_cons]
    by_cases ha : p a
    · simp [ha, add_comm]
    · simp [ha]

theorem coe_flatMap (f : Bot → List BotId) (l : List Bot) :
    (↑(l.flatMap f) : Multiset BotId) = (l.map fun b => (↑(f b) : Multiset BotId)).sum := by
  induction l with
  | nil => rfl
  | cons b l ih => rw [List.flatMap_cons, ← Multiset.coe_add, ih, List.map_cons, List.sum_cons]

theorem coe_identifiers : (↑s.identifiers : Multiset BotId) = s.total holdings := by
  rw [identifiers, coe_flatMap, activeBots, total, ← sum_map_active]
  rfl

theorem activeCount_eq_total : (s.activeCount : Int) = s.total presence := by
  rw [total, activeCount, activeBots]
  refine Eq.trans ?_ (sum_map_active (fun _ => (1 : Int)) _).symm
  simp

/-! ## The rewritten slots -/

namespace Legal

theorem nodup_rewritten_ids (hl : s.Legal rules plan) (h : s.Arranged) (hb : b ∈ s.activeBots) :
    ((s.rewritten plan b).map (·.id)).Nodup := by
  have hturn := hl.rewrites h hb
  generalize s.rewritten plan b = l at hturn
  cases hturn with
  | absorbs nd c hc hcmem hpairs => simpa [Bot.absorb, Bot.retire] using pairs_id_ne hpairs
  | splits nd m child rest hc hseeds =>
    have hne : b.id ≠ child := fun hid => h.id_not_mem_seeds hb hb (by simp [hseeds, hid])
    simpa [Bot.activeAt] using hne
  | _ => simp

theorem nodup_rewritten (hl : s.Legal rules plan) (h : s.Arranged) :
    ((s.activeBots.flatMap (s.rewritten plan)).map (·.id)).Nodup := by
  rw [List.map_flatMap, List.nodup_flatMap]
  refine ⟨fun b hb => hl.nodup_rewritten_ids h hb, ?_⟩
  refine h.nodup_activeBots.pairwise_of_forall_ne fun b hb b' hb' hne => ?_
  intro k hk hk'
  obtain ⟨x, hx, rfl⟩ := List.mem_map.1 hk
  obtain ⟨x', hx', hid⟩ := List.mem_map.1 hk'
  have howns' := hl.owns_of_mem_rewritten h hb' hx'
  rw [hid] at howns'
  exact hne (Owns.unique h hb hb' (hl.owns_of_mem_rewritten h hb hx) howns')

theorem bot?_of_mem_rewritten (hl : s.Legal rules plan) (h : s.Arranged) (hb : b ∈ s.activeBots)
    (hx : x ∈ s.rewritten plan b) : s.bot? x.id = some (s.before x) := by
  have hsome : ∃ old, s.bot? x.id = some old := by
    rcases hl.owns_of_mem_rewritten h hb hx with ⟨hid, -⟩ | ⟨c, hc, -, hid⟩ | ⟨_, _, -, hmem⟩
    · exact ⟨b, hid ▸ h.bot?_of_mem hb⟩
    · exact ⟨c, hid ▸ h.bot?_of_mem hc⟩
    · obtain ⟨slot, hslot, -⟩ := h.inactive_of_seed hb hmem
      exact ⟨slot, hslot⟩
  obtain ⟨old, hold⟩ := hsome
  rw [before, hold]
  rfl

theorem exists_rewritten (hl : s.Legal rules plan) (h : s.Arranged) (hb : b ∈ s.activeBots) :
    ∃ b' ∈ s.activeBots, ∃ x ∈ s.rewritten plan b', x.id = b.id := by
  have hturn := hl.rewrites h hb
  generalize hrew : s.rewritten plan b = l at hturn
  cases hturn with
  | stands _ x _ _ hid _ _ => exact ⟨b, hb, x, by simp [hrew], hid⟩
  | halts => exact ⟨b, hb, b.retire, by simp [hrew], rfl⟩
  | absorbs nd c => exact ⟨b, hb, b.absorb c.id c.seeds, by simp [hrew], rfl⟩
  | absorbed nd c _ hcmem hpairs =>
    exact ⟨c, hcmem, b.retire, hl.retire_mem_rewritten h hcmem hb hpairs, rfl⟩
  | splits nd m child rest =>
    exact ⟨b, hb, { b with seeds := rest.drop m.toNat }, by simp [hrew], rfl⟩

end Legal

/-! ## The active bots -/

namespace Midway

theorem mem_activeBots_iff (hmid : Midway s plan base s.activeBots t changed)
    (hl : s.Legal rules plan) (h : s.Arranged) :
    x ∈ t.activeBots ↔ x.active = true ∧ ∃ b ∈ s.activeBots, x ∈ s.rewritten plan b := by
  rw [hmid.seated.mem_activeBots, and_comm]
  refine and_congr_right fun hactive => ?_
  constructor
  · intro hx
    by_contra hnone
    push Not at hnone
    have hfree : ∀ b ∈ s.activeBots, ∀ y ∈ s.rewritten plan b, y.id ≠ x.id := by
      intro b hb y hy hid
      have hslot := hmid.rewritten b hb y hy
      rw [hid, hx] at hslot
      exact hnone b hb (Option.some.inj hslot ▸ hy)
    -- a slot that nobody rewrites was active before, but then it is rewritten
    rw [hmid.kept x.id hfree] at hx
    obtain ⟨b, hb, y, hy, hid⟩ := hl.exists_rewritten h (h.mem_of_bot? hx hactive)
    exact hfree b hb y hy hid
  · rintro ⟨b, hb, hx⟩
    exact hmid.rewritten b hb x hx

/-! ## Totals -/

theorem total_eq {M : Type} [AddCommMonoid M] (hmid : Midway s plan base s.activeBots t changed)
    (hl : s.Legal rules plan) (h : s.Arranged) (g : Bot → M) :
    t.total g + (s.activeBots.map fun b =>
        ((s.rewritten plan b).map fun x => g (s.before x)).sum).sum =
      s.total g + (s.activeBots.map fun b => ((s.rewritten plan b).map g).sum).sum := by
  have hrewrite := total_rewrite g s.before (s.activeBots.flatMap (s.rewritten plan)) h.toSeated
    hmid.seated (hl.nodup_rewritten h) (fun x hx => ?_) (fun x hx => ?_) (fun k hk => ?_)
  · simpa only [List.flatMap_def, List.map_flatten, List.sum_flatten, List.map_map,
      Function.comp_def] using hrewrite
  · obtain ⟨b, hb, hx⟩ := List.mem_flatMap.1 hx
    exact hl.bot?_of_mem_rewritten h hb hx
  · obtain ⟨b, hb, hx⟩ := List.mem_flatMap.1 hx
    exact hmid.rewritten b hb x hx
  · exact hmid.kept k fun b hb x hx => hk x (List.mem_flatMap.2 ⟨b, hb, hx⟩)

end Midway

theorem before_eq (hs : s.Seated) (hb : b ∈ s.activeBots) (hid : x.id = b.id) :
    s.before x = b := by
  rw [before, hid, hs.bot?_of_mem hb]
  rfl

theorem active_of_mem (hb : b ∈ s.activeBots) : b.active = true := (List.mem_filter.1 hb).2

/-! ## What is handed on -/

theorem coe_sortSeeds (seeds : List BotId) : (↑(Bot.sortSeeds seeds) : Multiset BotId) = ↑seeds :=
  Multiset.coe_eq_coe.2 (List.mergeSort_perm ..)

theorem holdings_of_active (hactive : b.active = true) : holdings b = b.id ::ₘ ↑b.seeds := by
  rw [holdings, if_pos hactive]
  rfl

theorem holdings_retire : holdings b.retire = 0 := rfl

theorem holdings_absorb (hb : b.active = true) (hc : c.active = true) :
    holdings (b.absorb c.id c.seeds) = holdings b + holdings c := by
  rw [holdings_of_active hb, holdings_of_active hc, holdings_of_active (by exact hb), Bot.absorb,
    coe_sortSeeds, ← Multiset.coe_add, Multiset.cons_add]
  rfl

theorem holdings_handOver (hb : b.active = true) {child : BotId} {rest : List BotId}
    (hseeds : b.seeds = child :: rest) (m : Nat) (p : Position) :
    holdings { b with seeds := rest.drop m } + holdings (Bot.activeAt child p (rest.take m)) =
      holdings b := by
  rw [holdings_of_active hb, holdings_of_active (by exact hb), holdings_of_active (by rfl),
    Bot.activeAt, coe_sortSeeds, hseeds, ← Multiset.cons_coe child, Multiset.cons_add,
    Multiset.add_cons, Multiset.coe_add]
  congr 2
  rw [Multiset.coe_eq_coe]
  exact List.perm_append_comm.trans (List.Perm.of_eq (List.take_append_drop m rest))

/-- A turn hands identifiers on, except that a bot that halts gives up what it holds. -/
theorem Legal.holdings_eq (hl : s.Legal rules plan) (h : s.Arranged) (hb : b ∈ s.activeBots) :
    ((s.rewritten plan b).map holdings).sum +
        (if plan.command? b.id = some .halt then holdings b else 0) =
      ((s.rewritten plan b).map fun x => holdings (s.before x)).sum := by
  have hactive := active_of_mem hb
  have hbefore (x : Bot) (hid : x.id = b.id) : s.before x = b := before_eq h.toSeated hb hid
  have hturn := hl.rewrites h hb
  generalize s.rewritten plan b = l at hturn
  cases hturn with
  | stands c x hc hsteady hid hseeds hsame =>
    simp only [List.map_cons, List.map_nil, List.sum_cons, List.sum_nil, add_zero]
    rw [if_neg fun heq => hsteady.2.1 (Option.some.inj (hc.symm.trans heq)), add_zero,
      hbefore x hid, holdings_of_active hactive, holdings_of_active (hsame.trans hactive), hid,
      hseeds]
  | halts hc =>
    simp only [List.map_cons, List.map_nil, List.sum_cons, List.sum_nil, holdings_retire, zero_add,
      add_zero]
    rw [if_pos hc, hbefore b.retire rfl]
  | absorbs nd c hc hcmem _ =>
    simp only [List.map_cons, List.map_nil, List.sum_cons, List.sum_nil, add_zero]
    rw [if_neg (by simp [hc]), add_zero, hbefore (b.absorb c.id c.seeds) rfl,
      before_eq h.toSeated hcmem (x := c.retire) rfl, holdings_retire, add_zero,
      holdings_absorb hactive (active_of_mem hcmem)]
  | absorbed nd c hc =>
    rw [if_neg (by simp [hc]), add_zero]
    rfl
  | splits nd m child rest hc hseeds =>
    -- the slot of the new bot held nothing before
    obtain ⟨slot, hslot, hidle⟩ := h.inactive_of_seed hb (x := child) (by simp [hseeds])
    have hchild : s.before (Bot.activeAt child (b.position + nd) (rest.take m.toNat)) = slot := by
      rw [before, Bot.activeAt, hslot]
      rfl
    have hnone : holdings slot = 0 := by rw [holdings, if_neg (by simp [hidle])]
    simp only [List.map_cons, List.map_nil, List.sum_cons, List.sum_nil, add_zero]
    rw [if_neg (by simp [hc]), add_zero, hbefore { b with seeds := rest.drop m.toNat } rfl, hchild,
      hnone, add_zero, holdings_handOver hactive hseeds]

theorem presence_of_active (hactive : b.active = true) : presence b = 1 := if_pos hactive

theorem presence_of_idle (hidle : b.active = false) : presence b = 0 := by simp [presence, hidle]

theorem Legal.presence_eq (hl : s.Legal rules plan) (h : s.Arranged) (hb : b ∈ s.activeBots) :
    ((s.rewritten plan b).map presence).sum + (if plan.command? b.id = some .halt then 1 else 0) =
      ((s.rewritten plan b).map fun x => presence (s.before x)).sum + grown plan b := by
  have hactive := active_of_mem hb
  have hbefore (x : Bot) (hid : x.id = b.id) : s.before x = b := before_eq h.toSeated hb hid
  have hone := presence_of_active hactive
  have hturn := hl.rewrites h hb
  generalize s.rewritten plan b = l at hturn
  cases hturn with
  | stands cmd x hc hsteady hid _ hsame =>
    simp only [List.map_cons, List.map_nil, List.sum_cons, List.sum_nil]
    rw [hbefore x hid, hone, presence_of_active (hsame.trans hactive), grown, hc, Option.map_some,
      Option.getD_some, hsteady.1, if_neg fun heq => hsteady.2.1 (Option.some.inj heq)]
  | halts hc =>
    simp only [List.map_cons, List.map_nil, List.sum_cons, List.sum_nil]
    rw [hbefore b.retire rfl, hone, presence_of_idle rfl, grown, hc]
    rfl
  | absorbs nd c hc hcmem _ =>
    simp only [List.map_cons, List.map_nil, List.sum_cons, List.sum_nil]
    rw [hbefore (b.absorb c.id c.seeds) rfl, before_eq h.toSeated hcmem (x := c.retire) rfl, hone,
      presence_of_active (active_of_mem hcmem), presence_of_active (b := b.absorb _ _) hactive,
      presence_of_idle (b := c.retire) rfl, grown, hc]
    rfl
  | absorbed nd c hc =>
    rw [grown, hc]
    rfl
  | splits nd m child rest hc hseeds =>
    obtain ⟨slot, hslot, hidle⟩ := h.inactive_of_seed hb (x := child) (by simp [hseeds])
    have hchild : s.before (Bot.activeAt child (b.position + nd) (rest.take m.toNat)) = slot := by
      rw [before, Bot.activeAt, hslot]
      rfl
    simp only [List.map_cons, List.map_nil, List.sum_cons, List.sum_nil]
    rw [hbefore { b with seeds := rest.drop m.toNat } rfl, hchild, hone, presence_of_idle hidle,
      presence_of_active (b := { b with seeds := rest.drop m.toNat }) hactive,
      presence_of_active (b := Bot.activeAt ..) rfl, grown, hc]
    rfl

namespace Midway

theorem holdings_eq (hmid : Midway s plan base s.activeBots t changed) (hl : s.Legal rules plan)
    (h : s.Arranged) :
    (↑t.identifiers : Multiset BotId) + (s.activeBots.map fun b =>
        if plan.command? b.id = some .halt then holdings b else 0).sum = ↑s.identifiers := by
  have htotal := hmid.total_eq hl h holdings
  have hturns := congrArg List.sum (List.map_congr_left fun b hb => hl.holdings_eq h hb)
  rw [List.sum_map_add] at hturns
  rw [← hturns, ← coe_identifiers, ← coe_identifiers, add_comm (List.sum _), ← add_assoc] at htotal
  exact add_right_cancel htotal

theorem holdings_le (hmid : Midway s plan base s.activeBots t changed) (hl : s.Legal rules plan)
    (h : s.Arranged) : (↑t.identifiers : Multiset BotId) ≤ ↑s.identifiers := by
  rw [← hmid.holdings_eq hl h]
  exact Multiset.le_add_right _ _

theorem activeCount_eq (hmid : Midway s plan base s.activeBots t changed) (hl : s.Legal rules plan)
    (h : s.Arranged) :
    (t.activeCount : Int) + s.activeBots.countP (fun b => plan.command? b.id = some .halt) =
      s.activeCount + (s.activeBots.map (grown plan)).sum := by
  have htotal := hmid.total_eq hl h presence
  have hturns := congrArg List.sum (List.map_congr_left fun b hb => hl.presence_eq h hb)
  simp only [List.sum_map_add] at hturns
  rw [sum_map_indicator] at hturns
  rw [← activeCount_eq_total, ← activeCount_eq_total] at htotal
  omega

end Midway

end State

end VoxelSwarm
