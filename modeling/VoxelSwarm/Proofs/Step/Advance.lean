import VoxelSwarm.Proofs.Step.Midway

/-!
# One turn further

Each of the twelve commands does to the state between two turns what its turn is to do
(`Midway.turned`), so that the state after it is again one between two turns (`Midway.next`), and
carrying out the commands of all bots in any order leads to such a state
(`Legal.midway_executeAll`).
-/

namespace VoxelSwarm

namespace State

variable {s t : State} {rules : Rules} {plan : Plan} {b c x : Bot} {done : List Bot} {base : Int}
  {changed : Bool} {k : BotId}

theorem bot?_updateBot_self {change : Bot → Bot} (hx : t.bot? k = some x) :
    (t.updateBot k change).bot? k = some (change x) := by
  rw [bot?_updateBot, if_pos rfl, hx, Option.map_some]

theorem bot?_updateBot_of_ne {change : Bot → Bot} {k' : BotId} (hne : k ≠ k') :
    (t.updateBot k change).bot? k' = t.bot? k' := by
  rw [bot?_updateBot, if_neg hne]

theorem updateBot_id : t.updateBot k id = t := by
  have hbots : t.bots.modify k.index id = t.bots := by
    apply Array.ext (Array.size_modify ..)
    intro i hi hi'
    rw [Array.getElem_modify]
    split <;> rfl
  rw [updateBot, hbots]

/-! ## The turn of one bot -/

theorem turned_of_update {cmd : Command} (change : Bot → Bot) {after : State}
    (ht : t.Seated) (hslot : t.bot? b.id = some b) (hc : plan.command? b.id = some cmd)
    (hid : (change b).id = b.id) (hrew : s.rewritten plan b = [change b])
    (hedit : s.editOf plan b = none)
    (hafter : after = { t.updateBot b.id change with
      energy := t.energy + cmd.travel + Energy.spawn * cmd.growth
      harmonics := if cmd = .flip then t.harmonics.flipped else t.harmonics
      halted := t.halted || cmd = .halt }) :
    Turned s plan b t (after, false) := by
  subst hafter
  have hseated := ht.updateBot b.id change fun y hy => by
    obtain rfl : y = b := Option.some.inj (hy.symm.trans hslot)
    exact hid
  refine ⟨⟨hseated.size, hseated.slot_id⟩, ?_, ?_, rfl, ?_, ?_, ?_, ?_, ?_⟩
  · rw [hrew]
    intro x hx
    obtain rfl := List.mem_singleton.1 hx
    rw [hid]
    exact bot?_updateBot_self hslot
  · rw [hrew]
    intro k hk
    have hne : b.id ≠ k := hid ▸ hk _ List.mem_cons_self
    exact bot?_updateBot_of_ne hne
  · rw [hedit]
    rfl
  · simp [hedit]
  · simp only [costOf, hc, hedit, Option.map_none, Option.getD_none]
    omega
  · simp only [hc, Option.some.injEq]
  · simp [hc]

theorem turned_of_edit {cmd : Command} (ht : t.Seated) (hm : t.matrix.Consistent)
    (hslot : t.bot? b.id = some b) (hc : plan.command? b.id = some cmd)
    (hrew : s.rewritten plan b = [b]) (hquiet : cmd.travel = 0 ∧ cmd.growth = 0)
    (hother : cmd ≠ .flip ∧ cmd ≠ .halt)
    (hholds : ∀ e, s.editOf plan b = some e → ∀ p ∈ e.voxels, t.matrix.Holds p)
    (hnodup : ∀ e, s.editOf plan b = some e → e.voxels.Nodup)
    (hsame : ∀ e, s.editOf plan b = some e → ∀ p ∈ e.voxels, t.matrix.get p = s.matrix.get p) :
    Turned s plan b t
      (match s.editOf plan b with
      | none => (t, false)
      | some e => t.applyEdit e) := by
  have hrewritten : ∀ x ∈ s.rewritten plan b, t.bot? x.id = some x := by
    rw [hrew]
    intro x hx
    obtain rfl := List.mem_singleton.1 hx
    exact hslot
  cases hedit : s.editOf plan b with
  | none =>
    refine ⟨ht, hrewritten, fun _ _ => rfl, rfl, by rw [hedit]; rfl, by simp [hedit], ?_, ?_, ?_⟩
    · simp [costOf, hc, hedit, hquiet]
    · simp [hc, hother]
    · simp [hc, hother]
  | some e =>
    have hcost : e.cost t.matrix = e.cost s.matrix := by
      simp only [Edit.cost]
      rw [List.map_congr_left fun p hp => by rw [hsame e hedit p hp]]
    simp only [applyEdit_eq hm (hholds e hedit) (hnodup e hedit)]
    refine ⟨⟨ht.size, ht.slot_id⟩, hrewritten, fun _ _ => rfl, rfl, by rw [hedit]; rfl, ?_, ?_,
      ?_, ?_⟩
    · simp only [hedit, Option.some.injEq, exists_eq_left', List.any_eq_true, bne_iff_ne]
      exact exists_congr fun p => and_congr_right fun hp => by rw [hsame e hedit p hp]
    · simp [costOf, hc, hedit, hquiet, hcost]
    · simp [hc, hother]
    · simp [hc, hother]

theorem Turned.get_eq {after : State × Bool} (hturn : Turned s plan b t after)
    (hm : t.matrix.Consistent)
    (hholds : ∀ e, s.editOf plan b = some e → ∀ p ∈ e.voxels, t.matrix.Holds p) (p : Position) :
    (∀ e, s.editOf plan b = some e → p ∈ e.voxels → after.1.matrix.get p = e.value) ∧
      ((∀ e, s.editOf plan b = some e → p ∉ e.voxels) →
        after.1.matrix.get p = t.matrix.get p) := by
  rw [hturn.matrix]
  cases hedit : s.editOf plan b with
  | none => simp
  | some e =>
    simp only [Option.some.injEq, forall_eq', Option.map_some, Option.getD_some,
      hm.get_setAll (hholds e hedit)]
    exact ⟨fun hp => if_pos hp, fun hp => if_neg hp⟩

namespace Midway

section Turn

variable (hmid : Midway s plan base done t changed) (hl : s.Legal rules plan) (h : s.Arranged)
  (hdone : ∀ b ∈ done, b ∈ s.activeBots) (hb : b ∈ s.activeBots) (hnew : b ∉ done)
include hmid hl h hdone hb hnew

theorem turned_fusionP {nd : Displacement} (hc : plan.command? b.id = some (.fusionP nd)) :
    Turned s plan b t (t.execute plan b.id (.fusionP nd)) := by
  have hslot := hmid.bot?_self hl h hdone hb hnew (by simp [hc])
  obtain ⟨c, hcmem, hpairs, hpos, hpartner⟩ := hl.exists_partner h hb hc
  have hcslot := hmid.bot?_partner hl h hdone hb hnew hcmem hpairs
  have hne : c.id ≠ b.id := Ne.symm (pairs_id_ne hpairs)
  have hrew : s.rewritten plan b = [b.absorb c.id c.seeds, c.retire] := by
    simp only [State.rewritten, hc, hpartner, Option.bind_some, h.bot?_of_mem hcmem]
  have hexec : t.execute plan b.id (.fusionP nd) =
      (((t.updateBot c.id Bot.retire).updateBot b.id fun b => b.absorb c.id c.seeds).charge
        (-Energy.spawn), false) := by
    simp only [execute, hmid.positionOf_eq hl h hdone hb hnew,
      hmid.fusionPartner?_eq hl h hdone hb hnew hcmem hpairs hpos, fuse, hcslot]
  have hedit : s.editOf plan b = none := by simp [editOf, hc, edit?]
  have hbslot : (t.updateBot c.id Bot.retire).bot? b.id = some b := by
    rw [bot?_updateBot_of_ne hne, hslot]
  have hseated := (hmid.seated.updateBot c.id Bot.retire
    fun y hy => (hmid.seated.id_eq hy : y.id = c.id)).updateBot b.id
    (fun b => b.absorb c.id c.seeds) fun y hy => by
      rw [Option.some.inj (hy.symm.trans hbslot)]
      rfl
  rw [hexec]
  refine ⟨⟨hseated.size, hseated.slot_id⟩, ?_, ?_, rfl, by rw [hedit]; rfl, by simp [hedit], ?_,
    by simp [hc, charge, updateBot], by simp [hc, charge, updateBot]⟩
  · rw [hrew]
    intro x hx
    rcases List.mem_cons.1 hx with rfl | hx
    · exact bot?_updateBot_self hbslot
    · obtain rfl := List.mem_singleton.1 hx
      exact (bot?_updateBot_of_ne (Ne.symm hne)).trans (bot?_updateBot_self hcslot)
  · rw [hrew]
    intro k hk
    have hkb : b.id ≠ k := hk (b.absorb c.id c.seeds) List.mem_cons_self
    have hkc : c.id ≠ k := hk c.retire (by simp)
    exact (bot?_updateBot_of_ne hkb).trans (bot?_updateBot_of_ne hkc)
  · simp [costOf, hc, hedit, charge, updateBot, Command.travel, Command.growth]

theorem turned_fission {nd : Displacement} {m : UInt8}
    (hc : plan.command? b.id = some (.fission nd m)) :
    Turned s plan b t (t.execute plan b.id (.fission nd m)) := by
  have hslot := hmid.bot?_self hl h hdone hb hnew (by simp [hc])
  obtain ⟨child, rest, hseeds, -, hsplit⟩ := hl.handOver_eq hb hc
  have hmem : child ∈ b.seeds := by simp [hseeds]
  have hne : b.id ≠ child := fun heq => h.id_not_mem_seeds hb hb (heq ▸ hmem)
  obtain ⟨old, hold, -⟩ := h.inactive_of_seed hb hmem
  rw [← hmid.bot?_of_owns hl h hdone hb hnew (.seed nd m hc hmem)] at hold
  have hrew : s.rewritten plan b = [{ b with seeds := rest.drop m.toNat },
      Bot.activeAt child (b.position + nd) (rest.take m.toNat)] := by
    simp only [State.rewritten, hc, hsplit]
  have hexec : t.execute plan b.id (.fission nd m) =
      (((t.updateBot b.id fun _ => { b with seeds := rest.drop m.toNat }).updateBot child
        fun _ => Bot.activeAt child (b.position + nd) (rest.take m.toNat)).charge
        Energy.spawn, false) := by
    simp only [execute, hmid.positionOf_eq hl h hdone hb hnew, spawn, hslot,
      Option.bind_some, hsplit, install, Bot.activeAt]
  have hedit : s.editOf plan b = none := by simp [editOf, hc, edit?]
  have hseated := (hmid.seated.updateBot b.id
    (fun _ => { b with seeds := rest.drop m.toNat }) fun _ _ => rfl).updateBot child
    (fun _ => Bot.activeAt child (b.position + nd) (rest.take m.toNat)) fun _ _ => rfl
  rw [hexec]
  refine ⟨⟨hseated.size, hseated.slot_id⟩, ?_, ?_, rfl, by rw [hedit]; rfl, by simp [hedit], ?_,
    by simp [hc, charge, updateBot], by simp [hc, charge, updateBot]⟩
  · rw [hrew]
    intro x hx
    rcases List.mem_cons.1 hx with rfl | hx
    · exact (bot?_updateBot_of_ne (Ne.symm hne)).trans (bot?_updateBot_self hslot)
    · obtain rfl := List.mem_singleton.1 hx
      exact bot?_updateBot_self ((bot?_updateBot_of_ne hne).trans hold)
  · rw [hrew]
    intro k hk
    have hkb : b.id ≠ k := hk { b with seeds := rest.drop m.toNat } List.mem_cons_self
    have hkc : child ≠ k := hk
      (Bot.activeAt child (b.position + nd) (rest.take m.toNat)) (by simp)
    exact (bot?_updateBot_of_ne hkc).trans (bot?_updateBot_of_ne hkb)
  · simp [costOf, hc, hedit, charge, updateBot, Command.travel, Command.growth]

/-- Each command does what the turn of its bot is to do. -/
theorem turned {cmd : Command} (hc : plan.command? b.id = some cmd) :
    Turned s plan b t (t.execute plan b.id cmd) := by
  have hslot (hstays : ∀ nd, cmd ≠ .fusionS nd) : t.bot? b.id = some b :=
    hmid.bot?_self hl h hdone hb hnew fun nd heq =>
      hstays nd (Option.some.inj (hc.symm.trans heq))
  have hpos := hmid.positionOf_eq hl h hdone hb hnew
  have hquiet (hnone : cmd.addressed b.position = none) : s.editOf plan b = none := by
    by_contra hsome
    obtain ⟨e, he⟩ := Option.ne_none_iff_exists'.1 hsome
    obtain ⟨cmd', hc', haddr, -⟩ := (editOf_eq_some_iff h.toSeated hb).1 he
    obtain rfl : cmd = cmd' := Option.some.inj (hc.symm.trans hc')
    rw [hnone] at haddr
    cases haddr
  have hedits (hstays : ∀ nd, cmd ≠ .fusionS nd) (hrew : s.rewritten plan b = [b])
      (hzero : cmd.travel = 0 ∧ cmd.growth = 0) (hother : cmd ≠ .flip ∧ cmd ≠ .halt)
      (hexec : t.execute plan b.id cmd = match t.edit? plan b.id cmd with
        | none => (t, false)
        | some e => t.applyEdit e) :
      Turned s plan b t (t.execute plan b.id cmd) := by
    rw [hexec, hmid.edit?_eq hl h hdone hb hnew hc]
    refine turned_of_edit hmid.seated hmid.consistent (hslot hstays) hc hrew hzero hother ?_ ?_ ?_
    · intro e he p hp
      have hin := hl.holds_edit h.toSeated hb he p hp
      rwa [Matrix.Holds, hmid.resolution]
    · intro e he
      obtain ⟨_, _, haddr, -⟩ := (editOf_eq_some_iff h.toSeated hb).1 he
      exact nodup_addressed haddr
    · exact fun e he p hp =>
        hmid.get_eq hl h hdone hb hnew (Legal.edit_subset_claimed h.toSeated hb he p hp)
  cases cmd with
  | halt =>
    refine turned_of_update Bot.retire hmid.seated (hslot (by simp)) hc rfl
      (by simp only [State.rewritten, hc]) (hquiet rfl) ?_
    simp [State.halt, updateBot, Command.travel, Command.growth]
  | wait =>
    refine turned_of_update id hmid.seated (hslot (by simp)) hc rfl
      (by simp only [State.rewritten, hc, id_eq]) (hquiet rfl) ?_
    simp [updateBot_id, Command.travel, Command.growth]
  | flip =>
    refine turned_of_update id hmid.seated (hslot (by simp)) hc rfl
      (by simp only [State.rewritten, hc, id_eq]) (hquiet rfl) ?_
    simp [updateBot_id, Command.travel, Command.growth]
  | smove lld =>
    refine turned_of_update (fun b' => { b' with position := b.position + lld }) hmid.seated
      (hslot (by simp)) hc rfl (by simp only [State.rewritten, hc]) (hquiet rfl) ?_
    simp [hpos, moveBot, updateBot, charge, Command.travel, Command.growth]
  | lmove sld₁ sld₂ =>
    refine turned_of_update (fun b' => { b' with position := b.position + sld₁ + sld₂ })
      hmid.seated (hslot (by simp)) hc rfl (by simp only [State.rewritten, hc]) (hquiet rfl) ?_
    simp [hpos, moveBot, updateBot, charge, Command.travel, Command.growth]
  | fusionP nd => exact hmid.turned_fusionP hl h hdone hb hnew hc
  | fusionS nd =>
    have hrew : s.rewritten plan b = [] := by simp only [State.rewritten, hc]
    have hedit := hquiet rfl
    have hexec : t.execute plan b.id (.fusionS nd) = (t, false) := rfl
    rw [hexec]
    exact ⟨hmid.seated, by simp [hrew], fun _ _ => rfl, rfl, by rw [hedit]; rfl, by simp [hedit],
      by simp [costOf, hc, hedit, Command.travel, Command.growth], by simp [hc], by simp [hc]⟩
  | fission nd m => exact hmid.turned_fission hl h hdone hb hnew hc
  | fill nd =>
    exact hedits (by simp) (by simp only [State.rewritten, hc]) ⟨rfl, rfl⟩ (by simp) rfl
  | void nd =>
    exact hedits (by simp) (by simp only [State.rewritten, hc]) ⟨rfl, rfl⟩ (by simp) rfl
  | gfill nd fd =>
    exact hedits (by simp) (by simp only [State.rewritten, hc]) ⟨rfl, rfl⟩ (by simp) rfl
  | gvoid nd fd =>
    exact hedits (by simp) (by simp only [State.rewritten, hc]) ⟨rfl, rfl⟩ (by simp) rfl

omit hdone hnew in
theorem get_after {after : State × Bool} (hturn : Turned s plan b t after) (p : Position) :
    (∀ e, s.editOf plan b = some e → p ∈ e.voxels → after.1.matrix.get p = e.value) ∧
      ((∀ e, s.editOf plan b = some e → p ∉ e.voxels) →
        after.1.matrix.get p = t.matrix.get p) := by
  refine hturn.get_eq hmid.consistent (fun e he q hq => ?_) p
  have hin := hl.holds_edit h.toSeated hb he q hq
  rwa [Matrix.Holds, hmid.resolution]

theorem next {after : State × Bool} (hturn : Turned s plan b t after) :
    Midway s plan base (done ++ [b]) after.1 (changed || after.2) where
  seated := hturn.seated
  rewritten := by
    rw [List.forall_mem_append, List.forall_mem_singleton]
    refine ⟨fun b' hb' x hx => ?_, hturn.rewritten⟩
    have howns := hl.owns_of_mem_rewritten h (hdone b' hb') hx
    rw [hturn.kept x.id fun y hy heq => ?_, hmid.rewritten b' hb' x hx]
    -- a slot rewritten twice would have two owners
    have howns' := hl.owns_of_mem_rewritten h hb hy
    rw [heq] at howns'
    exact hnew (Owns.unique h hb (hdone b' hb') howns' howns ▸ hb')
  kept k hk := by
    rw [List.forall_mem_append, List.forall_mem_singleton] at hk
    rw [hturn.kept k hk.2, hmid.kept k hk.1]
  target := hturn.target.trans hmid.target
  consistent := by
    rw [hturn.matrix]
    cases s.editOf plan b with
    | none => exact hmid.consistent
    | some e => exact hmid.consistent.setAll _ _
  resolution := by
    rw [hturn.matrix]
    cases s.editOf plan b with
    | none => exact hmid.resolution
    | some e => exact (Matrix.resolution_setAll ..).trans hmid.resolution
  written := by
    rw [List.forall_mem_append, List.forall_mem_singleton]
    refine ⟨fun b' hb' e he p hp => ?_,
      fun e he p hp => (hmid.get_after hl h hb hturn p).1 e he hp⟩
    have hne : b' ≠ b := fun heq => hnew (heq ▸ hb')
    have hclaimed := Legal.edit_subset_claimed h.toSeated (hdone b' hb') he p hp
    rw [(hmid.get_after hl h hb hturn p).2 fun e' he' =>
      hl.not_mem_edit h.toSeated (hdone b' hb') hb hne hclaimed he', hmid.written b' hb' e he p hp]
  unwritten p hp := by
    rw [List.forall_mem_append, List.forall_mem_singleton] at hp
    rw [(hmid.get_after hl h hb hturn p).2 hp.2, hmid.unwritten p hp.1]
  changed := by
    rw [Bool.or_eq_true, hmid.changed, hturn.changed]
    simp only [List.mem_append, List.mem_singleton, or_and_right, exists_or, exists_eq_left]
  energy := by
    rw [hturn.energy, hmid.energy, List.map_append, List.sum_append, List.map_singleton,
      List.sum_singleton, Int.add_assoc]
  harmonics := by
    rw [hturn.harmonics, hmid.harmonics, List.countP_append, List.countP_singleton]
    simp only [decide_eq_true_eq]
    split
    · rw [Function.iterate_succ_apply']
    · rfl
  halted := by
    rw [hturn.halted, hmid.halted, or_assoc]
    simp only [List.mem_append, List.mem_singleton, or_and_right, exists_or, exists_eq_left]

theorem next_executeBot :
    Midway s plan base (done ++ [b]) (executeBot plan (t, changed) b.id).1
      (executeBot plan (t, changed) b.id).2 := by
  obtain ⟨cmd, hc⟩ := (hl.covers b.id).2 (List.mem_map_of_mem hb)
  have hnext := hmid.next hl h hdone hb hnew (hmid.turned hl h hdone hb hnew hc)
  simpa only [executeBot, hc] using hnext

end Turn

/-! ## The turns of several bots -/

theorem foldl_executeBot (hl : s.Legal rules plan) (h : s.Arranged) {l : List Bot} :
    ∀ {done t changed}, Midway s plan base done t changed → (∀ b ∈ done ++ l, b ∈ s.activeBots) →
      (done ++ l).Nodup → ∀ {after}, (l.map (·.id)).foldl (executeBot plan) (t, changed) = after →
        Midway s plan base (done ++ l) after.1 after.2 := by
  -- each turn moves one bot from those to come to those that are done
  induction l with
  | nil =>
    intro done t changed hmid _ _ after hafter
    rw [List.append_nil, ← hafter]
    exact hmid
  | cons b l ih =>
    intro done t changed hmid hactive hnodup after hafter
    have hdone : ∀ b' ∈ done, b' ∈ s.activeBots := fun b' hb' =>
      hactive b' (List.mem_append_left _ hb')
    have hb : b ∈ s.activeBots := hactive b (by simp)
    have hnew : b ∉ done := fun hmem =>
      List.disjoint_of_nodup_append hnodup hmem List.mem_cons_self
    have hnext := hmid.next_executeBot hl h hdone hb hnew
    rw [List.map_cons, List.foldl_cons] at hafter
    rw [List.append_cons] at hactive hnodup ⊢
    exact ih hnext hactive hnodup hafter

end Midway

/-- What the commands of a legal plan have done when all bots have had their turns. -/
theorem Legal.midway_executeAll (hl : s.Legal rules plan) (h : s.Arranged)
    (hm : s.matrix.Consistent) {l : List Bot} (hperm : l.Perm s.activeBots) :
    Midway s plan (s.energy + Energy.passive s l.length) l (s.executeAll plan (l.map (·.id))).1
      (s.executeAll plan (l.map (·.id))).2 := by
  have hstart := Midway.start plan h.toSeated hm (Energy.passive s l.length)
  refine Midway.foldl_executeBot hl h hstart (fun b hb => hperm.mem_iff.1 hb)
    (hperm.nodup_iff.2 h.nodup_activeBots) ?_
  rw [executeAll, List.length_map]

end State

end VoxelSwarm
