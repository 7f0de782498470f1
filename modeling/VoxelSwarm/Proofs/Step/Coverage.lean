import VoxelSwarm.Proofs.Step.Lookups

/-!
# What footprints cover

Three functions list the voxels of a command: its check those that it looks at, its footprint those
that it claims, its effect those that it writes or where bots come to stand. The effect stays within
the footprint at the turn of each bot, where other bots have had theirs (`Legal.confined`), and so
in every step that carries out a plan (`confined_of_runStep`). A move looks at the voxels of its
footprint and at no others: to see which these are, the check is written for any way to look at a
voxel (`Command.sweep`), and one that notes where it looks is put in (`State.probe`). A bent move
looks at its corner twice and claims it once, which makes no difference to what comes out
(`State.checkPrecondition_eq_checkPath`).
-/

namespace VoxelSwarm

/-- What a move does to look at its way, for any look at a voxel. -/
def Command.sweep {μ : Type → Type} [Monad μ] (look : Position → μ Unit) (position : Position) :
    Command → μ Unit
  | .smove lld => forM (straightPath position lld) look
  | .lmove sld₁ sld₂ => do
    forM (straightPath position sld₁) look
    forM (straightPath (position + sld₁) sld₂) look
  | _ => return

namespace State

/-- Looks whether a voxel is inside the grid and void, and notes which voxel it was. -/
def probe (s : State) (p : Position) : ExceptT PreconditionError (StateM (List Position)) Unit :=
  ExceptT.mk (modifyGet fun seen => (s.checkVoid p, seen ++ [p]))

/-- The voxels of a path up to the first one that is not free, and that one. -/
def scanned (s : State) : List Position → List Position
  | [] => []
  | p :: rest => p :: if s.Free p then scanned s rest else []

/-- From `t` to `u`, the turn of `b` touches no voxel outside the footprint that its command `c` has
in the state `s` before the step. -/
structure Confined (s : State) (plan : Plan) (b : Bot) (c : Command) (t u : State) : Prop where
  voxels : ∀ p, t.matrix.get p ≠ u.matrix.get p → p ∈ s.footprint plan b.id c
  before : t.positionOf b.id ∈ s.footprint plan b.id c
  after : u.positionOf b.id ∈ s.footprint plan b.id c
  spawned : ∀ x ∈ u.activeBots, x.id ∉ t.activeIds → x.position ∈ s.footprint plan b.id c

/-- The check of a command looks at the voxels of its footprint, one after another up to the first
one that is not free, and at no others. That one is what it reports. -/
structure Sweeps (s : State) (rules : Rules) (plan : Plan) (id : BotId) (c : Command) : Prop where
  program : s.checkPrecondition rules plan id c = c.sweep s.checkVoid (s.positionOf id)
  looks : ∃ seen, (c.sweep s.probe (s.positionOf id)).run.run [] =
      (s.checkPrecondition rules plan id c, seen) ∧
    (∀ p, p ∈ seen ↔ ∃ before after,
      s.footprint plan id c = before ++ p :: after ∧ ∀ q ∈ before, s.Free q) ∧
    (s.checkPrecondition rules plan id c = .ok () → ∀ p, p ∈ seen ↔ p ∈ s.footprint plan id c)
  passes : s.checkPrecondition rules plan id c = .ok () ↔ ∀ p ∈ s.footprint plan id c, s.Free p
  fails : ∀ e, s.checkPrecondition rules plan id c = .error e ↔ ∃ before p after,
    s.footprint plan id c = before ++ p :: after ∧ (∀ q ∈ before, s.Free q) ∧
      (¬s.matrix.Holds p ∧ e = .outOfBounds p ∨
        s.matrix.Holds p ∧ s.matrix.get p = true ∧ e = .blocked p)

variable {s t : State} {rules : Rules} {plan : Plan} {b x : Bot} {done rest : List Bot}
  {c : Command} {id : BotId} {ps qs : List Position} {p : Position}

/-! ## Looking along a path -/

theorem checkVoid_eq_error_iff {e : PreconditionError} :
    s.checkVoid p = .error e ↔ ¬s.matrix.Holds p ∧ e = .outOfBounds p ∨
      s.matrix.Holds p ∧ s.matrix.get p = true ∧ e = .blocked p := by
  rw [checkVoid]
  by_cases hin : s.matrix.Holds p <;> cases hget : s.matrix.get p <;> simp [hin, eq_comm]

theorem checkPath_eq_error_iff {e : PreconditionError} :
    s.checkPath ps = .error e ↔ ∃ before p after,
      ps = before ++ p :: after ∧ (∀ q ∈ before, s.Free q) ∧ s.checkVoid p = .error e := by
  induction ps with
  | nil => simp [checkPath]
  | cons p ps ih =>
    rw [checkPath, seq_eq_error_iff, checkVoid_eq_ok_iff, ih]
    constructor
    · rintro (herror | ⟨hfree, before, q, after, rfl, hbefore, herror⟩)
      · exact ⟨[], p, ps, rfl, by simp, herror⟩
      · exact ⟨p :: before, q, after, rfl, List.forall_mem_cons.2 ⟨hfree, hbefore⟩, herror⟩
    · rintro ⟨before, q, after, hsplit, hbefore, herror⟩
      rcases List.cons_eq_append_iff.1 hsplit with ⟨rfl, hhead⟩ | ⟨before, rfl, rfl⟩
      · obtain ⟨rfl, rfl⟩ := List.cons.inj hhead
        exact Or.inl herror
      · obtain ⟨hfree, hbefore⟩ := List.forall_mem_cons.1 hbefore
        exact Or.inr ⟨hfree, before, q, after, rfl, hbefore, herror⟩

theorem checkPath_append :
    s.checkPath (ps ++ qs) = (do s.checkPath ps; s.checkPath qs) := by
  induction ps with
  | nil => rfl
  | cons p ps ih => rw [List.cons_append, checkPath, checkPath, ih, bind_assoc]

theorem forM_checkVoid : forM ps s.checkVoid = s.checkPath ps := by
  induction ps with
  | nil => rfl
  | cons p ps ih => rw [List.forM_cons, ih, checkPath]

/-! ## Which voxels are looked at -/

theorem mem_scanned_iff :
    p ∈ s.scanned ps ↔ ∃ before after, ps = before ++ p :: after ∧ ∀ q ∈ before, s.Free q := by
  induction ps with
  | nil => simp [scanned]
  | cons q ps ih =>
    rw [scanned, List.mem_cons]
    constructor
    · rintro (rfl | hrest)
      · exact ⟨[], ps, rfl, by simp⟩
      · split at hrest
        · next hfree =>
          obtain ⟨before, after, rfl, hbefore⟩ := ih.1 hrest
          exact ⟨q :: before, after, rfl, List.forall_mem_cons.2 ⟨hfree, hbefore⟩⟩
        · cases hrest
    · rintro ⟨before, after, hsplit, hbefore⟩
      rcases List.cons_eq_append_iff.1 hsplit with ⟨rfl, hhead⟩ | ⟨before, rfl, rfl⟩
      · exact Or.inl (List.cons.inj hhead).1
      · obtain ⟨hfree, hbefore⟩ := List.forall_mem_cons.1 hbefore
        rw [if_pos hfree]
        exact Or.inr (ih.2 ⟨before, after, rfl, hbefore⟩)

theorem scanned_append_of_free (hps : ∀ q ∈ ps, s.Free q) :
    s.scanned (ps ++ qs) = ps ++ s.scanned qs := by
  induction ps with
  | nil => rfl
  | cons q ps ih =>
    obtain ⟨hfree, hps⟩ := List.forall_mem_cons.1 hps
    rw [List.cons_append, scanned, if_pos hfree, ih hps, List.cons_append]

theorem scanned_of_free (hps : ∀ q ∈ ps, s.Free q) : s.scanned ps = ps := by
  have happend : s.scanned (ps ++ []) = ps ++ s.scanned [] := scanned_append_of_free hps
  rwa [List.append_nil, scanned, List.append_nil] at happend

theorem scanned_append_of_blocked (hps : ¬∀ q ∈ ps, s.Free q) :
    s.scanned (ps ++ qs) = s.scanned ps := by
  induction ps with
  | nil => simp at hps
  | cons q ps ih =>
    rw [List.cons_append, scanned, scanned]
    split
    · next hfree => rw [ih fun hall => hps (List.forall_mem_cons.2 ⟨hfree, hall⟩)]
    · rfl

section Noting

variable {first rest : ExceptT PreconditionError (StateM (List Position)) Unit}
  {e : PreconditionError} {seen seen' : List Position}

theorem run_seq_of_ok (hfirst : first.run.run seen = (.ok (), seen')) :
    (do first; rest).run.run seen = rest.run.run seen' := by
  rw [ExceptT.run_bind, StateT.run_bind, hfirst]
  rfl

theorem run_seq_of_error (hfirst : first.run.run seen = (.error e, seen')) :
    (do first; rest).run.run seen = (.error e, seen') := by
  rw [ExceptT.run_bind, StateT.run_bind, hfirst]
  rfl

theorem run_forM_probe (ps seen : List Position) :
    (forM ps s.probe).run.run seen = (s.checkPath ps, seen ++ s.scanned ps) := by
  induction ps generalizing seen with
  | nil => rw [scanned, List.append_nil]; rfl
  | cons p ps ih =>
    have hprobe : (s.probe p).run.run seen = (s.checkVoid p, seen ++ [p]) := rfl
    rw [List.forM_cons, checkPath, scanned]
    cases hvoid : s.checkVoid p with
    | error e =>
      have hblocked : ¬s.Free p := fun hfree => by simp [checkVoid_eq_ok_iff.2 hfree] at hvoid
      rw [hvoid] at hprobe
      rw [run_seq_of_error hprobe, if_neg hblocked]
      rfl
    | ok _ =>
      rw [hvoid] at hprobe
      rw [run_seq_of_ok hprobe, ih, if_pos (checkVoid_eq_ok_iff.1 hvoid), List.append_assoc]
      rfl

end Noting

/-! ## Moves -/

theorem checkPath_bentPath {d e : Displacement} (hlinear : d.Linear) :
    s.checkPath (bentPath p d e) =
      (do s.checkPath (straightPath p d); s.checkPath (straightPath (p + d) e)) := by
  rw [bentPath, checkPath_append]
  cases hfirst : s.checkPath (straightPath p d) with
  | error e => rfl
  | ok _ =>
    -- the corner has been found free at the end of the first half
    have hcorner : s.checkVoid (p + d) = .ok () := checkVoid_eq_ok_iff.2
      (checkPath_eq_ok_iff.1 hfirst _ (stop_mem_straightPath p hlinear))
    rw [straightPath_eq_cons (p + d) e, checkPath, hcorner]
    rfl

/-- The check of a move goes along its footprint. -/
theorem checkPrecondition_eq_checkPath (hvalid : c.Valid) (hmove : c.offset?.isSome) :
    s.checkPrecondition rules plan id c = s.checkPath (s.footprint plan id c) := by
  have hdone {x : Except PreconditionError Unit} : (do x; .ok ()) = x := bind_pure x
  cases c <;> try cases hmove
  case smove lld => exact hdone
  case lmove d e =>
    have hlinear : d.Linear := (hvalid (.shortLinear, d) (by simp [Command.arguments])).1
    exact hdone.trans (checkPath_bentPath hlinear).symm

theorem checkPrecondition_eq_sweep (hmove : c.offset?.isSome) :
    s.checkPrecondition rules plan id c = c.sweep s.checkVoid (s.positionOf id) := by
  have hdone {x : Except PreconditionError Unit} : (do x; .ok ()) = x := bind_pure x
  cases c <;> try cases hmove
  case smove lld => exact hdone.trans forM_checkVoid.symm
  case lmove d e =>
    rw [Command.sweep, forM_checkVoid, forM_checkVoid]
    exact hdone

theorem run_bentPath_probe {d e : Displacement} (hlinear : d.Linear) :
    ∃ seen, (Command.sweep s.probe p (.lmove d e)).run.run [] =
        (s.checkPath (bentPath p d e), seen) ∧
      ∀ q, q ∈ seen ↔ q ∈ s.scanned (bentPath p d e) := by
  have hfirst := run_forM_probe (s := s) (straightPath p d) []
  rw [checkPath_bentPath hlinear]
  cases hcheck : s.checkPath (straightPath p d) with
  | error cause =>
    have hblocked : ¬∀ q ∈ straightPath p d, s.Free q := fun hfree => by
      simp [checkPath_eq_ok_iff.2 hfree] at hcheck
    rw [hcheck] at hfirst
    refine ⟨_, run_seq_of_error hfirst, fun q => ?_⟩
    rw [bentPath, scanned_append_of_blocked hblocked, List.nil_append]
  | ok _ =>
    have hfree := checkPath_eq_ok_iff.1 hcheck
    have hstop := stop_mem_straightPath p hlinear
    rw [hcheck] at hfirst
    refine ⟨_, (run_seq_of_ok hfirst).trans (run_forM_probe _ _), fun q => ?_⟩
    have hcorner : s.scanned (straightPath (p + d) e) =
        (p + d) :: s.scanned ((straightPath (p + d) e).drop 1) := by
      rw [straightPath_eq_cons, scanned, if_pos (hfree _ hstop), List.drop_succ_cons,
        List.drop_zero]
    rw [bentPath, scanned_append_of_free hfree, scanned_of_free hfree, hcorner, List.nil_append,
      List.mem_append, List.mem_append, List.mem_cons]
    constructor
    · rintro (hq | rfl | hq)
      · exact Or.inl hq
      · exact Or.inl hstop
      · exact Or.inr hq
    · exact Or.imp_right Or.inr

theorem run_sweep_probe (rules : Rules) (plan : Plan) (id : BotId) (hvalid : c.Valid)
    (hmove : c.offset?.isSome) :
    ∃ seen, (c.sweep s.probe (s.positionOf id)).run.run [] =
        (s.checkPrecondition rules plan id c, seen) ∧
      ∀ p, p ∈ seen ↔ p ∈ s.scanned (s.footprint plan id c) := by
  rw [checkPrecondition_eq_checkPath hvalid hmove]
  cases c <;> try cases hmove
  case smove lld => exact ⟨_, run_forM_probe _ _, fun _ => Iff.rfl⟩
  case lmove d e =>
    exact run_bentPath_probe (hvalid (.shortLinear, d) (by simp [Command.arguments])).1

theorem sweeps (hvalid : c.Valid) (hmove : c.offset?.isSome) : s.Sweeps rules plan id c := by
  have hpath : s.checkPrecondition rules plan id c = s.checkPath (s.footprint plan id c) :=
    checkPrecondition_eq_checkPath hvalid hmove
  have hpasses : s.checkPrecondition rules plan id c = .ok () ↔
      ∀ p ∈ s.footprint plan id c, s.Free p := by rw [hpath, checkPath_eq_ok_iff]
  obtain ⟨seen, hrun, hseen⟩ := run_sweep_probe (s := s) rules plan id hvalid hmove
  refine ⟨checkPrecondition_eq_sweep hmove, ⟨seen, hrun, fun p => ?_, fun hok p => ?_⟩, hpasses,
    fun e => ?_⟩
  · rw [hseen, mem_scanned_iff]
  · rw [hseen, scanned_of_free (hpasses.1 hok)]
  · rw [hpath, checkPath_eq_error_iff]
    simp only [checkVoid_eq_error_iff]

/-! ## What a turn touches -/

namespace Legal

section Turn

variable (hl : s.Legal rules plan) (h : s.Coherent) (hb : b ∈ s.activeBots)
include hl h hb

theorem mem_claimed_of_get_ne {base : Int} {changed : Bool} {after : State × Bool}
    (hmid : Midway s plan base done t changed) (hturn : Turned s plan b t after)
    (hne : t.matrix.get p ≠ after.1.matrix.get p) : p ∈ s.claimed plan b.id := by
  by_contra hp
  refine hne ((hmid.get_after hl h hb hturn p).2 fun e he hmem => ?_).symm
  exact hp (edit_subset_claimed h.toSeated hb he p hmem)

theorem rewritten_self :
    (∀ x ∈ s.rewritten plan b, x.id ≠ b.id) ∨
      ∃ x ∈ s.rewritten plan b, x.id = b.id ∧ (x.active = true ∨ x.position = b.position) := by
  have hrew := hl.rewrites h hb
  generalize s.rewritten plan b = l at hrew
  cases hrew with
  | stands _ x _ _ hid _ hactive =>
    exact Or.inr ⟨x, by simp, hid, Or.inl (hactive.trans (h.mem_activeBots.1 hb).2)⟩
  | halts => exact Or.inr ⟨b.retire, by simp, rfl, Or.inr rfl⟩
  | absorbs _ c => exact Or.inr ⟨b.absorb c.id c.seeds, by simp, rfl, Or.inr rfl⟩
  | absorbed => exact Or.inl (by simp)
  | splits _ m _ rest =>
    exact Or.inr ⟨{ b with seeds := rest.drop m.toNat }, by simp, rfl, Or.inr rfl⟩

theorem positionOf_mem_claimed {after : State × Bool} (hturn : Turned s plan b t after)
    (hstood : t.positionOf b.id = b.position) : after.1.positionOf b.id ∈ s.claimed plan b.id := by
  have hbefore := hl.position_mem_claimed h.toSeated hb
  rcases hl.rewritten_self h hb with hkept | ⟨x, hx, hid, hwhere⟩
  · rw [positionOf, hturn.kept _ hkept, ← positionOf, hstood]
    exact hbefore
  · have hslot := hturn.rewritten x hx
    rw [hid] at hslot
    rw [positionOf, hslot, Option.map_some, Option.getD_some]
    rcases hwhere with hactive | hsame
    · exact (hl.landing h hb hx hactive).claimed
    · rw [hsame]
      exact hbefore

theorem spawned_mem_claimed {after : State × Bool} (hturn : Turned s plan b t after)
    (ht : t.Seated) (hx : x ∈ after.1.activeBots) (hnew : x.id ∉ t.activeIds) :
    x.position ∈ s.claimed plan b.id := by
  have hslot := hturn.seated.bot?_of_mem hx
  have hactive := (hturn.seated.mem_activeBots.1 hx).2
  by_cases hrew : ∃ y ∈ s.rewritten plan b, y.id = x.id
  · obtain ⟨y, hy, hid⟩ := hrew
    have hy' := hturn.rewritten y hy
    rw [hid] at hy'
    obtain rfl : x = y := Option.some.inj (hslot.symm.trans hy')
    exact (hl.landing h hb hy hactive).claimed
  · push Not at hrew
    rw [hturn.kept _ hrew] at hslot
    exact absurd (ht.mem_activeIds.2 ⟨x, hslot, hactive⟩) hnew

end Turn

theorem confined (hl : s.Legal rules plan) (h : s.Coherent) (hm : s.matrix.Consistent)
    (hsplit : s.activeBots = done ++ b :: rest) (hc : plan.command? b.id = some c) :
    s.Confined plan b c (s.partway plan done).1
      ((s.partway plan done).1.execute plan b.id c).1 := by
  obtain ⟨hdone, hb, hnew⟩ := h.of_split hsplit
  have hmid := hl.midway_partway h hm hsplit
  have hturn := hl.turned_partway h hm hsplit hc
  have hstood := hmid.positionOf_eq hl h hdone hb hnew
  constructor
  all_goals rw [← claimed_eq hc]
  · intro p hne
    exact hl.mem_claimed_of_get_ne h hb hmid hturn hne
  · rw [hstood]
    exact hl.position_mem_claimed h.toSeated hb
  · exact hl.positionOf_mem_claimed h hb hturn hstood
  · intro x hx hfresh
    exact hl.spawned_mem_claimed h hb hturn hmid.seated hx hfresh

theorem exists_confined (hl : s.Legal rules plan) (h : s.Coherent) (hm : s.matrix.Consistent)
    (hsplit : s.activeBots = done ++ b :: rest) : ∃ c, plan.command? b.id = some c ∧
      s.Confined plan b c (s.partway plan done).1
        ((s.partway plan done).1.execute plan b.id c).1 := by
  obtain ⟨-, hb, -⟩ := h.of_split hsplit
  obtain ⟨c, hc⟩ := (hl.covers b.id).2 (List.mem_map_of_mem hb)
  exact ⟨c, hc, hl.confined h hm hsplit hc⟩

end Legal

/-- At its turn in a plan that passes the checks a bot touches no voxel but those of the footprint
that its command has before the step. The check of a move goes along its footprint, in any plan and
whether it passes or not. -/
theorem footprints_cover (rules : Rules) (h : s.Coherent) (hm : s.matrix.Consistent) :
    (∀ plan : Plan, plan.Covers s → s.checkPlan rules plan s.activeIds = .ok () →
      ∀ done b rest, s.activeBots = done ++ b :: rest → ∃ c, plan.command? b.id = some c ∧
        s.executeAll plan s.activeIds =
          ((b :: rest).map (·.id)).foldl (executeBot plan) (s.partway plan done) ∧
        s.Confined plan b c (s.partway plan done).1
          ((s.partway plan done).1.execute plan b.id c).1) ∧
    ∀ (plan : Plan) (id : BotId) (c : Command), c.Valid → c.offset?.isSome →
      s.Sweeps rules plan id c := by
  constructor
  · intro plan hcovers hok done b rest hsplit
    have hl := (checkPlan_eq_ok_iff h.toSeated hcovers).1 hok
    obtain ⟨c, hc, hconfined⟩ := hl.exists_confined h hm hsplit
    exact ⟨c, hc, executeAll_eq_foldl_partway hsplit, hconfined⟩
  · intro plan id c hvalid hmove
    exact sweeps hvalid hmove

/-- The third bot spawns another one at its turn; the first one would not get past the full
voxel. -/
theorem footprints_cover_medley :
    medley.Confined medleyPlan ⟨⟨3⟩, ⟨0, 2, 0⟩, [⟨8⟩, ⟨9⟩], true⟩ (.fission ⟨1, 0, 0⟩ 1)
      (medley.partway medleyPlan (medley.activeBots.take 2)).1
      ((medley.partway medleyPlan (medley.activeBots.take 2)).1.execute medleyPlan ⟨3⟩
        (.fission ⟨1, 0, 0⟩ 1)).1 ∧
    medley.Sweeps {} medleyPlan ⟨1⟩ (.lmove ⟨1, 0, 0⟩ ⟨0, 2, 0⟩) ∧
    medley.checkPrecondition {} medleyPlan ⟨1⟩ (.lmove ⟨1, 0, 0⟩ ⟨0, 2, 0⟩) =
      .error (.blocked ⟨1, 1, 0⟩) := by
  obtain ⟨hturns, hmoves⟩ := footprints_cover {} medley_coherent medley_consistent
  have hsplit : medley.activeBots = medley.activeBots.take 2 ++
      ⟨⟨3⟩, ⟨0, 2, 0⟩, [⟨8⟩, ⟨9⟩], true⟩ :: medley.activeBots.drop 3 := by decide +kernel
  have hsplits : medleyPlan.command? ⟨3⟩ = some (.fission ⟨1, 0, 0⟩ 1) := by decide +kernel
  obtain ⟨c, hc, -, hconfined⟩ := hturns medleyPlan medley_covers medley_checkPlan _ _ _ hsplit
  obtain rfl : c = .fission ⟨1, 0, 0⟩ 1 := Option.some.inj (hc.symm.trans hsplits)
  have hsweeps := hmoves medleyPlan ⟨1⟩ (.lmove ⟨1, 0, 0⟩ ⟨0, 2, 0⟩) (by decide) rfl
  refine ⟨hconfined, hsweeps, (hsweeps.fails _).2 ?_⟩
  exact ⟨[⟨0, 0, 0⟩, ⟨1, 0, 0⟩], ⟨1, 1, 0⟩, [⟨1, 2, 0⟩], by decide +kernel, by decide +kernel,
    Or.inr ⟨by decide, by decide +kernel, rfl⟩⟩

/-- In the plan that a step reads and carries out no bot touches a voxel outside its footprint. -/
theorem confined_of_runStep {σ : Type} [CommandSource σ] {src src' : σ}
    {result : Except StepError StepReport} (h : s.Coherent) (hm : s.matrix.Consistent)
    (hstep : s.runStep rules src = (result, t, src')) (hdone : CarriedOut result) :
    ∃ plan, readPlan s.activeIds Plan.empty src = (.ok plan, src') ∧
      (s.executeAll plan s.activeIds).1 = t ∧
      ∀ done b rest, s.activeBots = done ++ b :: rest → ∃ c, plan.command? b.id = some c ∧
        s.Confined plan b c (s.partway plan done).1
          ((s.partway plan done).1.execute plan b.id c).1 := by
  obtain ⟨plan, hread, hl, ht⟩ := exists_legal_of_runStep h.toSeated hstep hdone
  exact ⟨plan, hread, ht, fun done b rest hsplit => hl.exists_confined h hm hsplit⟩

end State

end VoxelSwarm
