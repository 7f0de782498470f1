import VoxelSwarm.Proofs.Step.Invariant

/-!
# The swarm without its matrix

What a step does to the slots does not depend on the matrix (`Alike.executeAll`), and a legal plan
stays legal when all matter is taken away (`Legal.hollow`). So what only concerns the slots may be
shown in an empty grid: `Orderly` asks of a state no more than that its swarm makes sense there. The
state that a run starts from is orderly even if the voxel at the origin is full or there is no voxel
at all (`orderly_of_initial`), and steps keep states orderly (`Orderly.executeAll`).
-/

namespace VoxelSwarm

namespace State

/-- The swarm in an empty grid that is one voxel larger, so that the origin is inside of it. -/
def hollow (s : State) : State :=
  { s with
    matrix := Matrix.empty (s.resolution + 1)
    target := Matrix.empty (s.resolution + 1) }

/-- The bots make sense together, wherever there is matter. -/
def Orderly (s : State) : Prop := s.hollow.Coherent

/-- Two states with equal slots, of which both have halted or none. -/
structure Alike (s t : State) : Prop where
  bots : s.bots = t.bots
  halted : s.halted = t.halted

variable {s t u : State} {rules : Rules} {plan : Plan} {ids : List BotId} {b : Bot} {c : Command}

/-! ## What the slots do not depend on -/

theorem Alike.trans (h : s.Alike t) (h' : t.Alike u) : s.Alike u :=
  ⟨h.bots.trans h'.bots, h.halted.trans h'.halted⟩

theorem Alike.symm (h : s.Alike t) : t.Alike s := ⟨h.bots.symm, h.halted.symm⟩

theorem alike_hollow (s : State) : s.Alike s.hollow := ⟨rfl, rfl⟩

theorem Alike.activeBots (h : s.Alike t) : s.activeBots = t.activeBots := by
  rw [State.activeBots, State.activeBots, h.bots]

theorem Alike.identifiers (h : s.Alike t) : s.identifiers = t.identifiers := by
  rw [State.identifiers, State.identifiers, h.activeBots]

theorem Alike.bot? (h : s.Alike t) (k : BotId) : s.bot? k = t.bot? k := by
  rw [State.bot?, State.bot?, h.bots]

theorem Alike.updateBot (h : s.Alike t) (k : BotId) (change : Bot → Bot) :
    (s.updateBot k change).Alike (t.updateBot k change) :=
  ⟨by rw [State.updateBot, State.updateBot, h.bots], h.halted⟩

theorem alike_charge (s : State) (amount : Int) : (s.charge amount).Alike s := ⟨rfl, rfl⟩

theorem foldl_writeVoxel_frame (value : Bool) (ps : List Position) (earlier : Bool) :
    (ps.foldl (writeVoxel value) (s, earlier)).1.Alike s ∧
      (ps.foldl (writeVoxel value) (s, earlier)).1.resolution = s.resolution := by
  induction ps generalizing s earlier with
  | nil => exact ⟨⟨rfl, rfl⟩, rfl⟩
  | cons p ps ih =>
    rw [List.foldl_cons, writeVoxel]
    split
    · obtain ⟨halike, hresolution⟩ :=
        ih (s := s.charge (Energy.write value (s.matrix.get p))) earlier
      exact ⟨halike.trans (alike_charge ..), hresolution⟩
    · obtain ⟨halike, hresolution⟩ := ih
        (s := { s.charge (Energy.write value (s.matrix.get p)) with
          matrix := s.matrix.set p value }) true
      exact ⟨halike.trans ⟨rfl, rfl⟩, hresolution.trans (Matrix.resolution_set ..)⟩

theorem applyEdit_frame (s : State) (e : Edit) :
    (s.applyEdit e).1.Alike s ∧ (s.applyEdit e).1.resolution = s.resolution :=
  foldl_writeVoxel_frame ..

theorem resolution_execute (s : State) (plan : Plan) (id : BotId) (c : Command) :
    (s.execute plan id c).1.resolution = s.resolution := by
  cases c with
  | fusionP nd =>
    simp only [execute]
    split
    · rfl
    · rw [fuse]
      split <;> rfl
  | fission nd m =>
    simp only [execute, spawn]
    split <;> rfl
  | fill nd | void nd | gfill nd fd | gvoid nd fd =>
    simp only [execute]
    split
    · rfl
    · exact (applyEdit_frame ..).2
  | _ => rfl

theorem resolution_executeAll (s : State) (plan : Plan) (ids : List BotId) :
    (s.executeAll plan ids).1.resolution = s.resolution := by
  have hfold : ∀ (ids : List BotId) (t : State) (changed : Bool),
      (ids.foldl (executeBot plan) (t, changed)).1.resolution = t.resolution := by
    intro ids
    induction ids with
    | nil => exact fun _ _ => rfl
    | cons id ids ih =>
      intro t changed
      rw [List.foldl_cons, executeBot]
      split
      · exact ih ..
      · exact (ih ..).trans (resolution_execute ..)
  exact hfold ..

namespace Alike

theorem positionOf (h : s.Alike t) (id : BotId) : s.positionOf id = t.positionOf id := by
  rw [State.positionOf, State.positionOf, h.bot?]

theorem fusionPartner? (h : s.Alike t) (p : Position) (nd : Displacement) (primary : Bool) :
    plan.fusionPartner? s p nd primary = plan.fusionPartner? t p nd primary := by
  rw [Plan.fusionPartner?, Plan.fusionPartner?, h.activeBots]

theorem groupLeader? (h : s.Alike t) (kind : GroupKind) (g : Region) :
    plan.groupLeader? s kind g = plan.groupLeader? t kind g := by
  rw [Plan.groupLeader?, Plan.groupLeader?, Plan.groupMembers, Plan.groupMembers, h.activeBots]

theorem edit? (h : s.Alike t) (id : BotId) (c : Command) :
    s.edit? plan id c = t.edit? plan id c := by
  simp only [State.edit?, h.positionOf, h.groupLeader?]

theorem fuse (h : s.Alike t) (primary secondary : BotId) :
    (s.fuse primary secondary).Alike (t.fuse primary secondary) := by
  rw [State.fuse, State.fuse, h.bot?]
  split
  · exact h
  · exact (alike_charge ..).trans (((h.updateBot ..).updateBot ..).trans (alike_charge ..).symm)

theorem spawn (h : s.Alike t) (id : BotId) (target : Position) (m : Nat) :
    (s.spawn id target m).Alike (t.spawn id target m) := by
  rw [State.spawn, State.spawn, h.bot?]
  split
  · exact h
  · exact (alike_charge ..).trans (((h.updateBot ..).updateBot ..).trans (alike_charge ..).symm)

theorem execute (h : s.Alike t) (id : BotId) (c : Command) :
    (s.execute plan id c).1.Alike (t.execute plan id c).1 := by
  cases c with
  | halt => exact ⟨(h.updateBot id Bot.retire).bots, rfl⟩
  | wait | fusionS nd => exact h
  | flip => exact ⟨h.bots, h.halted⟩
  | smove lld | lmove sld₁ sld₂ =>
    simp only [State.execute, moveBot, h.positionOf]
    exact (alike_charge ..).trans ((h.updateBot ..).trans (alike_charge ..).symm)
  | fusionP nd =>
    simp only [State.execute, h.positionOf, h.fusionPartner?]
    split
    · exact h
    · exact h.fuse ..
  | fission nd m =>
    simp only [State.execute, h.positionOf]
    exact h.spawn ..
  | fill nd | void nd | gfill nd fd | gvoid nd fd =>
    simp only [State.execute, h.edit?]
    split
    · exact h
    · exact (applyEdit_frame ..).1.trans (h.trans (applyEdit_frame ..).1.symm)

theorem foldl_executeBot (h : s.Alike t) (plan : Plan) (ids : List BotId)
    (changed changed' : Bool) :
    (ids.foldl (executeBot plan) (s, changed)).1.Alike
      (ids.foldl (executeBot plan) (t, changed')).1 := by
  induction ids generalizing s t changed changed' with
  | nil => exact h
  | cons id ids ih =>
    rw [List.foldl_cons, List.foldl_cons, executeBot, executeBot]
    split
    · exact ih h ..
    · exact ih (h.execute ..) ..

theorem executeAll (h : s.Alike t) (plan : Plan) (ids : List BotId) :
    (s.executeAll plan ids).1.Alike (t.executeAll plan ids).1 :=
  foldl_executeBot ((alike_charge ..).trans (h.trans (alike_charge ..).symm)) ..

end Alike

/-! ## Taking the matter away -/

theorem Free.hollow {p : Position} (h : s.matrix.Holds p) : s.hollow.Free p := by
  refine ⟨?_, Matrix.get_empty ..⟩
  simp only [Matrix.Holds, Position.Inside, State.hollow, Matrix.empty, State.resolution] at h ⊢
  omega

/-- What a command requires, an empty grid that is no smaller grants as well. -/
theorem Permits.hollow (h : s.Permits rules plan b c) : s.hollow.Permits rules plan b c := by
  cases c with
  | halt => exact ⟨h.alone, h.first, h.origin, h.low, fun _ => rfl⟩
  | wait | flip => trivial
  | smove lld | lmove sld₁ sld₂ => exact fun p hp => Free.hollow (h p hp).1
  | fusionP nd | fusionS nd => exact ⟨(Free.hollow h.1).1, h.2⟩
  | fission nd m => exact ⟨Free.hollow h.1.1, h.2⟩
  | fill nd | void nd => exact (Free.hollow h).1
  | gfill nd fd | gvoid nd fd =>
    exact ⟨(Free.hollow h.near).1, (Free.hollow h.far).1, h.outside,
      ⟨h.complete.length, h.complete.nodup⟩⟩

theorem Legal.hollow (hl : s.Legal rules plan) : s.hollow.Legal rules plan where
  covers := hl.covers
  valid := hl.valid
  permits b hb c hc := (hl.permits b hb c hc).hollow
  apart := hl.apart

/-! ## Orderly states -/

theorem Coherent.orderly_of_alike (h : t.Coherent) (halike : s.Alike t)
    (hresolution : t.resolution ≤ s.resolution + 1) : s.Orderly := by
  have hactive : s.hollow.activeBots = t.activeBots := halike.activeBots
  have hsize := h.size
  have hslot := h.slot_id
  rw [← halike.bots] at hsize hslot
  refine ⟨⟨hsize, hslot⟩, ?_, rfl, ?_, fun _ _ => Matrix.get_empty .., ?_, ?_, ?_, ?_⟩
  · rw [hactive]
    exact h.reserved
  · rw [hactive]
    intro b hb
    have hin := h.inside b hb
    have hside : t.matrix.resolution ≤ s.resolution + 1 := hresolution
    simp only [Matrix.Holds, Position.Inside, State.hollow, Matrix.empty] at *
    omega
  · rw [hactive]
    exact h.apart
  · rw [hactive]
    exact h.seeds
  · rw [State.identifiers, hactive]
    exact h.identifiers
  · rw [hactive, ← h.activity, ← halike.halted]
    rfl

theorem Coherent.orderly (h : s.Coherent) : s.Orderly :=
  h.orderly_of_alike ⟨rfl, rfl⟩ (Nat.le_succ _)

namespace Orderly

theorem seated (h : s.Orderly) : s.Seated := ⟨h.size, h.slot_id⟩

theorem arranged (h : s.Orderly) : s.Arranged where
  toSeated := h.seated
  reserved := h.reserved
  apart := h.apart
  seeds := h.seeds
  identifiers := h.identifiers

theorem halted_iff (h : s.Orderly) : s.halted = true ↔ s.activeBots = [] := h.activity

theorem midway (h : s.Orderly) (hl : s.Legal rules plan) :
    ∃ base changed, Midway s.hollow plan base s.hollow.activeBots
      (s.hollow.executeAll plan s.activeIds).1 changed :=
  ⟨_, _, hl.hollow.midway_executeAll (Coherent.arranged h) (Matrix.Consistent.empty _)
    (List.Perm.refl _)⟩

theorem executeAll (h : s.Orderly) (hl : s.Legal rules plan) :
    (s.executeAll plan s.activeIds).1.Orderly := by
  obtain ⟨base, changed, hmid⟩ := h.midway hl
  refine (hmid.coherent hl.hollow h).orderly_of_alike ((alike_hollow s).executeAll ..) ?_
  rw [resolution_executeAll, resolution_executeAll]
  exact Nat.le_refl _

theorem halted_executeAll (h : s.Orderly) (hl : s.Legal rules plan) :
    (s.executeAll plan s.activeIds).1.halted = true ↔
      s.halted = true ∨ ∃ b ∈ s.activeBots, plan.command? b.id = some .halt := by
  obtain ⟨base, changed, hmid⟩ := h.midway hl
  rw [((alike_hollow s).executeAll plan s.activeIds).halted]
  exact hmid.halted

end Orderly

/-! ## The state that a run starts from -/

def founder : Bot :=
  ⟨BotId.first, Position.origin, (List.range' 2 (BotId.greatest - 1)).map BotId.ofIndex, true⟩

theorem activeAt_eq_founder :
    Bot.activeAt BotId.first Position.origin
      ((List.range' 2 (BotId.greatest - 1)).map BotId.ofIndex) = founder := by
  rw [Bot.activeAt, Bot.sortSeeds, List.mergeSort_of_pairwise (by decide +kernel), founder]

def foundingSlots : Array Bot := idleSlots.modify BotId.first.index fun _ => founder

theorem start_eq (source target : Matrix) :
    start source target = ⟨source, target, foundingSlots, 0, .low, false⟩ := by
  simp only [start, activeAt_eq_founder, foundingSlots]

theorem bots_start (source target : Matrix) : (start source target).bots = foundingSlots := by
  rw [start_eq]

theorem activeBots_start (source target : Matrix) :
    (start source target).activeBots = [founder] := by
  rw [activeBots, bots_start]
  decide +kernel

theorem seated_start (source target : Matrix) : (start source target).Seated := by
  have hsize : foundingSlots.size = botSlots := by decide +kernel
  have hslots : checkSlots 0 foundingSlots.toList = .ok () := by decide +kernel
  refine ⟨by rw [bots_start, hsize], fun i b hb => ?_⟩
  rw [bots_start, ← Array.getElem?_toList] at hb
  have := checkSlots_eq_ok_iff.1 hslots i b hb
  omega

theorem orderly_start (source target : Matrix) : (start source target).Orderly := by
  have hactive : (start source target).hollow.activeBots = [founder] := activeBots_start ..
  have hseated := seated_start source target
  refine ⟨⟨hseated.size, hseated.slot_id⟩, ?_, rfl, ?_, fun _ _ => Matrix.get_empty .., ?_, ?_, ?_,
    ?_⟩
  · rw [hactive]
    decide +kernel
  · rw [hactive]
    intro b hb
    rw [List.mem_singleton.1 hb]
    simp only [Matrix.Holds, Position.Inside, hollow, Matrix.empty, founder, Position.origin]
    omega
  · rw [hactive]
    decide +kernel
  · rw [hactive]
    decide +kernel
  · rw [State.identifiers, hactive]
    decide +kernel
  · rw [hactive]
    simp [start, hollow]

theorem exists_start_of_initial {source target : Option Matrix}
    (h : initial source target = .ok s) : ∃ m m', s = start m m' := by
  cases source <;> cases target <;> simp only [initial] at h
  · cases h
  · exact ⟨_, _, (Except.ok.inj h).symm⟩
  · exact ⟨_, _, (Except.ok.inj h).symm⟩
  · next source target =>
    cases hsame : source.checkSameResolution target with
    | error e =>
      rw [hsame] at h
      cases h
    | ok _ =>
      rw [hsame] at h
      exact ⟨_, _, (Except.ok.inj h).symm⟩

theorem orderly_of_initial {source target : Option Matrix} (h : initial source target = .ok s) :
    s.Orderly := by
  obtain ⟨m, m', rfl⟩ := exists_start_of_initial h
  exact orderly_start ..

end State

end VoxelSwarm
