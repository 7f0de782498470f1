import VoxelSwarm.Proofs.Geometry.Boxes
import VoxelSwarm.Proofs.Geometry.Order
import VoxelSwarm.Proofs.Step.Footprints
import VoxelSwarm.Proofs.Swarm.Coherent

/-!
# Legal plans

What it takes for a plan to be carried out, said without the order in which the checks are made:
each active bot has a valid command that the state permits, and the footprints are disjoint
(`Legal`). A plan for the active bots passes the checks exactly when it is legal
(`checkPlan_eq_ok_iff`).
-/

namespace VoxelSwarm

/-- The plan has a command for each active bot and for no other. -/
def Plan.Covers (plan : Plan) (s : State) : Prop :=
  ∀ id, (∃ c, plan.command? id = some c) ↔ id ∈ s.activeIds

theorem exists_command?_readPlan {σ : Type} [CommandSource σ] {ids : List BotId} :
    ∀ {plan plan' : Plan} {src src' : σ}, readPlan ids plan src = (.ok plan', src') →
      (∀ id ∈ ids, id.index < botSlots) → ∀ k,
        (∃ c, plan'.command? k = some c) ↔ k ∈ ids ∨ ∃ c, plan.command? k = some c := by
  induction ids with
  | nil =>
    intro plan plan' src src' hread _ k
    cases hread
    simp
  | cons id ids ih =>
    intro plan plan' src src' hread hids k
    rw [readPlan] at hread
    split at hread
    · simp at hread
    · next c src₁ _ =>
      rw [ih hread (fun id' hid' => hids id' (List.mem_cons_of_mem _ hid')) k,
        Plan.command?_assign _ (hids id List.mem_cons_self), List.mem_cons]
      by_cases hk : id = k
      · simp [hk]
      · simp [hk, Ne.symm hk]

theorem covers_of_readPlan {σ : Type} [CommandSource σ] {s : State} {plan : Plan}
    {src src' : σ} (hs : s.Seated)
    (hread : readPlan s.activeIds Plan.empty src = (.ok plan, src')) : plan.Covers s := by
  intro k
  have hids : ∀ id ∈ s.activeIds, id.index < botSlots := by
    intro id hid
    obtain ⟨b, hb, -⟩ := hs.mem_activeIds.1 hid
    exact hs.index_lt hb
  rw [exists_command?_readPlan hread hids k]
  simp [Plan.command?_empty]

/-- The bot has a fusion command that points at `p`, as the absorbing one when `primary`. -/
def Plan.FusesAt (plan : Plan) (primary : Bool) (b : Bot) (p : Position) : Prop :=
  ∃ nd, plan.command? b.id = some (if primary then .fusionP nd else .fusionS nd) ∧
    p = b.position + nd

/-- `b` absorbs `c`: each has the fusion command that points at the other. -/
def Plan.Pairs (plan : Plan) (b c : Bot) : Prop :=
  plan.FusesAt true b c.position ∧ plan.FusesAt false c b.position

namespace State

def Free (s : State) (p : Position) : Prop := s.matrix.Holds p ∧ s.matrix.get p = false

instance (s : State) (p : Position) : Decidable (s.Free p) := inferInstanceAs (Decidable (_ ∧ _))

/-- The bots that name a box are as many as its corners, and each names a corner of its own. -/
structure Complete (s : State) (plan : Plan) (kind : GroupKind) (g : Region) : Prop where
  length : (plan.groupMembers s kind g).length = g.corners.length
  nodup : ((plan.groupMembers s kind g).map (·.2)).Nodup

structure PermitsBox (s : State) (plan : Plan) (b : Bot) (kind : GroupKind)
    (nd fd : Displacement) : Prop where
  near : s.matrix.Holds (b.position + nd)
  far : s.matrix.Holds (b.position + nd + fd)
  outside : ¬(groupRegion b.position nd fd).Contains b.position
  complete : s.Complete plan kind (groupRegion b.position nd fd)

structure PermitsHalt (s : State) (rules : Rules) (b : Bot) : Prop where
  alone : s.activeBots = [b]
  first : b.id = BotId.first
  origin : b.position = Position.origin
  low : s.harmonics = .low
  target : rules.targetBeforeHalt = true → s.matrix = s.target

/-- What the command of an active bot requires of the state and of the other commands. -/
def Permits (s : State) (rules : Rules) (plan : Plan) (b : Bot) : Command → Prop
  | .halt => s.PermitsHalt rules b
  | .wait | .flip => True
  | .smove lld => ∀ p ∈ straightPath b.position lld, s.Free p
  | .lmove sld₁ sld₂ => ∀ p ∈ bentPath b.position sld₁ sld₂, s.Free p
  | .fusionP nd =>
    s.matrix.Holds (b.position + nd) ∧ ∃ c ∈ s.activeBots, plan.Pairs b c
  | .fusionS nd =>
    s.matrix.Holds (b.position + nd) ∧ ∃ c ∈ s.activeBots, plan.Pairs c b
  | .fission nd m => s.Free (b.position + nd) ∧ m.toNat < b.seeds.length
  | .fill nd | .void nd => s.matrix.Holds (b.position + nd)
  | .gfill nd fd => s.PermitsBox plan b .fill nd fd
  | .gvoid nd fd => s.PermitsBox plan b .void nd fd

/-- The plan can be carried out. -/
structure Legal (s : State) (rules : Rules) (plan : Plan) : Prop where
  covers : plan.Covers s
  valid : ∀ b ∈ s.activeBots, ∀ c, plan.command? b.id = some c → c.Valid
  permits : ∀ b ∈ s.activeBots, ∀ c, plan.command? b.id = some c → s.Permits rules plan b c
  apart : ∀ b ∈ s.activeBots, ∀ b' ∈ s.activeBots, b ≠ b' →
    ∀ p ∈ s.claimed plan b.id, p ∉ s.claimed plan b'.id

variable {s : State} {rules : Rules} {plan : Plan} {b : Bot}

/-! ## Checks of one bot alone -/

theorem checkInside_eq_ok_iff {p : Position} :
    s.checkInside p = .ok () ↔ s.matrix.Holds p := by
  rw [checkInside]
  split <;> simp [*]

theorem checkVoid_eq_ok_iff {p : Position} : s.checkVoid p = .ok () ↔ s.Free p := by
  rw [checkVoid, Free]
  by_cases hin : s.matrix.Holds p <;> cases hget : s.matrix.get p <;> simp [hin]

theorem checkPath_eq_ok_iff {ps : List Position} :
    s.checkPath ps = .ok () ↔ ∀ p ∈ ps, s.Free p := by
  induction ps with
  | nil => simp [checkPath]
  | cons p ps ih => rw [checkPath, seq_eq_ok_iff, checkVoid_eq_ok_iff, ih, List.forall_mem_cons]

theorem checkHalt_eq_ok_iff (h : s.Seated) (hb : b ∈ s.activeBots) :
    s.checkHalt rules b.id = .ok () ↔ s.PermitsHalt rules b := by
  have halone : s.activeCount = 1 ↔ s.activeBots = [b] := by
    rw [activeCount, List.length_eq_one_iff]
    constructor
    · rintro ⟨x, hx⟩
      rw [hx, List.mem_singleton] at hb
      rw [hx, hb]
    · exact fun heq => ⟨b, heq⟩
  have htarget : (rules.targetBeforeHalt && !s.targetReached) = false ↔
      (rules.targetBeforeHalt = true → s.matrix = s.target) := by
    cases rules.targetBeforeHalt <;> simp [targetReached]
  have hlow : ¬s.harmonics = .high ↔ s.harmonics = .low := by
    cases s.harmonics <;> simp
  rw [checkHalt, h.positionOf_eq hb]
  simp only [guard_eq_ok_iff, ne_eq, not_not, halone, hlow, Bool.not_eq_true, htarget, and_true]
  constructor
  · rintro ⟨h1, h2, h3, h4, h5⟩
    exact ⟨h1, h2, h3, h4, h5⟩
  · rintro ⟨h1, h2, h3, h4, h5⟩
    exact ⟨h1, h2, h3, h4, h5⟩

theorem checkFission_eq_ok_iff (h : s.Seated) (hb : b ∈ s.activeBots) {p : Position} {m : Nat} :
    s.checkFission b.id p m = .ok () ↔ s.Free p ∧ m < b.seeds.length := by
  unfold checkFission
  rw [seq_eq_ok_iff, checkVoid_eq_ok_iff, h.bot?_of_mem hb]
  simp only [Option.map_some, Option.getD_some]
  refine and_congr_right fun _ => ?_
  split
  · next hlt => exact ⟨fun hok => (nomatch hok), fun hm => by omega⟩
  · next hge => exact ⟨fun _ => by omega, fun _ => rfl⟩

theorem checkBox_eq_ok_iff (h : s.Seated) (hb : b ∈ s.activeBots) {nd fd : Displacement} :
    s.checkBox b.id nd fd = .ok () ↔
      s.matrix.Holds (b.position + nd) ∧ s.matrix.Holds (b.position + nd + fd) ∧
        ¬(groupRegion b.position nd fd).Contains b.position := by
  unfold checkBox
  simp only [h.positionOf_eq hb, seq_eq_ok_iff, checkInside_eq_ok_iff]
  refine and_congr_right fun _ => and_congr_right fun _ => ?_
  split <;> simp [*]

/-! ## Checks of several bots together -/

theorem partner_test_iff {c : Bot} {p : Position} {nd : Displacement} {primary : Bool} :
    (c.position = p + nd &&
      match plan.command? c.id with
      | some (.fusionP back) => primary && decide (p + nd + back = p)
      | some (.fusionS back) => !primary && decide (p + nd + back = p)
      | _ => false) = true ↔ c.position = p + nd ∧ plan.FusesAt primary c p := by
  rw [Bool.and_eq_true, decide_eq_true_eq]
  refine and_congr_right fun hpos => ?_
  rw [Plan.FusesAt, hpos]
  cases hcmd : plan.command? c.id with
  | none => simp
  | some c' => cases c' <;> cases primary <;> simp [eq_comm]

theorem fusionPartner?_isSome_iff {p : Position} {nd : Displacement} {primary : Bool} :
    (plan.fusionPartner? s p nd primary).isSome = true ↔
      ∃ c ∈ s.activeBots, c.position = p + nd ∧ plan.FusesAt primary c p := by
  rw [Plan.fusionPartner?, Option.isSome_map, List.find?_isSome]
  exact exists_congr fun c => and_congr_right fun _ => partner_test_iff

theorem checkFusion_eq_ok_iff {p : Position} {nd : Displacement} {primary : Bool} :
    s.checkFusion plan p nd primary = .ok () ↔
      ∃ c ∈ s.activeBots, c.position = p + nd ∧ plan.FusesAt primary c p := by
  rw [← fusionPartner?_isSome_iff, checkFusion]
  split <;> simp [*]

theorem fusesAt_iff (primary : Bool) {p : Position} {nd : Displacement}
    (hc : plan.command? b.id = some (if primary then .fusionP nd else .fusionS nd)) :
    plan.FusesAt primary b p ↔ p = b.position + nd := by
  rw [Plan.FusesAt, hc]
  cases primary <;> simp

theorem checkFusion_primary_iff {nd : Displacement}
    (hc : plan.command? b.id = some (.fusionP nd)) :
    s.checkFusion plan b.position nd false = .ok () ↔ ∃ c ∈ s.activeBots, plan.Pairs b c := by
  rw [checkFusion_eq_ok_iff]
  refine exists_congr fun c => and_congr_right fun _ => ?_
  rw [Plan.Pairs, fusesAt_iff true hc]

theorem checkFusion_secondary_iff {nd : Displacement}
    (hc : plan.command? b.id = some (.fusionS nd)) :
    s.checkFusion plan b.position nd true = .ok () ↔ ∃ c ∈ s.activeBots, plan.Pairs c b := by
  rw [checkFusion_eq_ok_iff]
  refine exists_congr fun c => and_congr_right fun _ => ?_
  rw [Plan.Pairs, fusesAt_iff false hc, and_comm]

theorem firstRepeated_eq_none_iff {l : List Position} (h : l.Pairwise fun p q => ¬q < p) :
    firstRepeated l = none ↔ l.Nodup := by
  induction l with
  | nil => simp [firstRepeated]
  | cons p l ih =>
    obtain ⟨hp, hl⟩ := List.pairwise_cons.1 h
    cases l with
    | nil => simp [firstRepeated]
    | cons q l =>
      rw [firstRepeated]
      by_cases hpq : p = q
      · simp [hpq]
      · rw [if_neg hpq, ih hl, List.nodup_cons (a := p)]
        refine ⟨fun hnodup => ⟨fun hmem => ?_, hnodup⟩, fun hnodup => hnodup.2⟩
        -- a later occurrence of `p` would be no less than `q`, which is no less than `p`
        rcases List.mem_cons.1 hmem with heq | hmem
        · exact hpq heq
        · exact hpq (Position.eq_of_not_lt (hp q List.mem_cons_self)
            ((List.pairwise_cons.1 hl).1 p hmem))

theorem checkGroup_eq_ok_iff {kind : GroupKind} {g : Region} :
    s.checkGroup plan kind g = .ok () ↔ s.Complete plan kind g := by
  have hnone := firstRepeated_eq_none_iff
    (Position.pairwise_mergeSort ((plan.groupMembers s kind g).map (·.2)))
  rw [(List.mergeSort_perm ..).nodup_iff] at hnone
  rw [checkGroup]
  simp only [guard_eq_ok_iff, ne_eq, not_not]
  constructor
  · rintro ⟨hlength, hcorners⟩
    split at hcorners
    · cases hcorners
    · next heq => exact ⟨hlength, hnone.1 heq⟩
  · intro h
    refine ⟨h.length, ?_⟩
    rw [hnone.2 h.nodup]

/-! ## The whole check -/

theorem checkPrecondition_eq_ok_iff (h : s.Seated) (hb : b ∈ s.activeBots) {c : Command}
    (hc : plan.command? b.id = some c) (hvalid : c.Valid) :
    s.checkPrecondition rules plan b.id c = .ok () ↔ s.Permits rules plan b c := by
  have hpos := h.positionOf_eq hb
  rw [checkPrecondition, seq_eq_ok_iff]
  cases c with
  | halt => simp only [checkAlone, checkTogether, Permits, checkHalt_eq_ok_iff h hb, and_true]
  | wait => simp only [checkAlone, checkTogether, Permits, and_true]
  | flip => simp only [checkAlone, checkTogether, Permits, and_true]
  | smove lld => simp only [checkAlone, checkTogether, hpos, Permits, checkPath_eq_ok_iff, and_true]
  | lmove d e =>
    have hlinear : d.Linear := (hvalid (.shortLinear, d) (by simp [Command.arguments])).1
    simp only [checkAlone, checkTogether, hpos, Permits, checkPath_eq_ok_iff, seq_eq_ok_iff,
      mem_bentPath hlinear, and_true, or_imp, forall_and]
  | fusionP nd =>
    simp only [checkAlone, checkTogether, hpos, Permits, checkInside_eq_ok_iff,
      checkFusion_primary_iff hc]
  | fusionS nd =>
    simp only [checkAlone, checkTogether, hpos, Permits, checkInside_eq_ok_iff,
      checkFusion_secondary_iff hc]
  | fission nd m =>
    simp only [checkAlone, checkTogether, hpos, Permits, checkFission_eq_ok_iff h hb, and_true]
  | fill nd =>
    simp only [checkAlone, checkTogether, hpos, Permits, checkInside_eq_ok_iff, and_true]
  | void nd =>
    simp only [checkAlone, checkTogether, hpos, Permits, checkInside_eq_ok_iff, and_true]
  | gfill nd fd =>
    simp only [checkAlone, checkTogether, hpos, Permits, checkBox_eq_ok_iff h hb,
      checkGroup_eq_ok_iff]
    constructor
    · rintro ⟨⟨h1, h2, h3⟩, h4⟩
      exact ⟨h1, h2, h3, h4⟩
    · intro hp
      exact ⟨⟨hp.near, hp.far, hp.outside⟩, hp.complete⟩
  | gvoid nd fd =>
    simp only [checkAlone, checkTogether, hpos, Permits, checkBox_eq_ok_iff h hb,
      checkGroup_eq_ok_iff]
    constructor
    · rintro ⟨⟨h1, h2, h3⟩, h4⟩
      exact ⟨h1, h2, h3, h4⟩
    · intro hp
      exact ⟨⟨hp.near, hp.far, hp.outside⟩, hp.complete⟩

theorem mapError_eq_ok_iff {ε ε' : Type} {f : ε → ε'} {x : Except ε Unit} :
    x.mapError f = .ok () ↔ x = .ok () := by
  cases x with
  | error e => exact ⟨fun h => (nomatch h), fun h => (nomatch h)⟩
  | ok _ => exact ⟨fun _ => rfl, fun _ => rfl⟩

theorem checkBot_eq_ok_iff (h : s.Seated) (hb : b ∈ s.activeBots) :
    s.checkBot rules plan b.id = .ok () ↔
      ∃ c, plan.command? b.id = some c ∧ c.Valid ∧ s.Permits rules plan b c := by
  rw [checkBot]
  cases hc : plan.command? b.id with
  | none => simp
  | some c =>
    simp only [seq_eq_ok_iff, mapError_eq_ok_iff, Command.check_eq_ok_iff, Option.some.injEq,
      exists_eq_left']
    exact and_congr_right fun hvalid => checkPrecondition_eq_ok_iff h hb hc hvalid

theorem checkBots_eq_ok_iff {ids : List BotId} :
    s.checkBots rules plan ids = .ok () ↔ ∀ id ∈ ids, s.checkBot rules plan id = .ok () := by
  induction ids with
  | nil => simp [checkBots]
  | cons id ids ih => rw [checkBots, seq_eq_ok_iff, ih, List.forall_mem_cons]

theorem checkFootprints_eq_ok_iff_none {ids : List BotId} :
    s.checkFootprints plan ids = .ok () ↔ s.findInterference? plan ids = none := by
  rw [checkFootprints]
  split
  · next hclash => simp [hclash]
  · next hnone => simp [hnone]

theorem checkFootprints_eq_ok_iff (h : s.Seated) :
    s.checkFootprints plan s.activeIds = .ok () ↔
      ∀ b ∈ s.activeBots, ∀ b' ∈ s.activeBots, b ≠ b' →
        ∀ p ∈ s.claimed plan b.id, p ∉ s.claimed plan b'.id := by
  rw [checkFootprints_eq_ok_iff_none, findInterference?_eq_none_iff h.nodup_activeIds, activeIds,
    List.pairwise_map]
  constructor
  · intro hpairs
    have : Std.Symm fun b b' : Bot => ∀ p ∈ s.claimed plan b.id, p ∉ s.claimed plan b'.id :=
      ⟨fun _ _ hab p hp hp' => hab p hp' hp⟩
    exact fun b hb b' hb' hne => hpairs.forall hb hb' hne
  · intro hall
    exact h.nodup_activeBots.pairwise_of_forall_ne fun b hb b' hb' hne => hall b hb b' hb' hne

/-- The checks accept the legal plans and no others. -/
theorem checkPlan_eq_ok_iff (h : s.Seated) (hcovers : plan.Covers s) :
    s.checkPlan rules plan s.activeIds = .ok () ↔ s.Legal rules plan := by
  have hbots : s.checkBots rules plan s.activeIds = .ok () ↔
      ∀ b ∈ s.activeBots, ∃ c, plan.command? b.id = some c ∧ c.Valid ∧
        s.Permits rules plan b c := by
    rw [checkBots_eq_ok_iff, activeIds, List.forall_mem_map]
    exact forall₂_congr fun b hb => checkBot_eq_ok_iff h hb
  rw [checkPlan, seq_eq_ok_iff, hbots, checkFootprints_eq_ok_iff h]
  constructor
  · rintro ⟨hall, hapart⟩
    refine ⟨hcovers, fun b hb c hc => ?_, fun b hb c hc => ?_, hapart⟩
    all_goals
      obtain ⟨c', hc', hvalid, hpermits⟩ := hall b hb
      obtain rfl : c' = c := Option.some.inj (hc'.symm.trans hc)
    · exact hvalid
    · exact hpermits
  · intro hlegal
    refine ⟨fun b hb => ?_, hlegal.apart⟩
    obtain ⟨c, hc⟩ := (hcovers b.id).2 (List.mem_map_of_mem hb)
    exact ⟨c, hc, hlegal.valid b hb c hc, hlegal.permits b hb c hc⟩

/-! ## An example -/

def crew : State :=
  [⟨⟨1⟩, ⟨0, 0, 0⟩, [], true⟩, ⟨⟨2⟩, ⟨1, 0, 0⟩, [⟨8⟩], true⟩, ⟨⟨3⟩, ⟨2, 0, 0⟩, [⟨6⟩, ⟨7⟩], true⟩,
    ⟨⟨4⟩, ⟨0, 1, 2⟩, [], true⟩].foldl install (start (Matrix.empty 3) (Matrix.empty 3))

/-- Two of them fuse, one splits and one fills. -/
def crewCommands : List Command :=
  [.fusionP ⟨1, 0, 0⟩, .fusionS ⟨-1, 0, 0⟩, .fission ⟨0, 1, 0⟩ 1, .fill ⟨0, -1, 0⟩]

def crewPlan : Plan :=
  (((Plan.empty.assign ⟨1⟩ (.fusionP ⟨1, 0, 0⟩)).assign ⟨2⟩ (.fusionS ⟨-1, 0, 0⟩)).assign ⟨3⟩
    (.fission ⟨0, 1, 0⟩ 1)).assign ⟨4⟩ (.fill ⟨0, -1, 0⟩)

theorem crew_checkWellFormed : crew.checkWellFormed = .ok () := by decide +kernel

theorem crew_coherent : crew.Coherent := (checkWellFormed_eq_ok_iff.1 crew_checkWellFormed).1

theorem crew_readPlan :
    readPlan crew.activeIds Plan.empty (CommandList.ofList crewCommands) =
      (.ok crewPlan, ⟨[], 4⟩) := by
  decide +kernel

theorem crew_covers : crewPlan.Covers crew :=
  covers_of_readPlan crew_coherent.toSeated crew_readPlan

theorem crew_checkPlan : crew.checkPlan {} crewPlan crew.activeIds = .ok () := by
  rw [checkPlan, seq_eq_ok_iff, checkFootprints_eq_ok_iff crew_coherent.toSeated]
  constructor
  · decide +kernel
  · decide +kernel

end State

end VoxelSwarm
