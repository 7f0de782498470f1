import VoxelSwarm.Proofs.Matrix.Floating
import VoxelSwarm.Proofs.Step.Conservation
import VoxelSwarm.Proofs.Step.Outcome
import VoxelSwarm.Proofs.Step.Prefix

/-!
# Steps that fail

A step fails before it has changed anything, or after it has carried out everything and only because
matter floats (`runStep_eq_error`). So the loop that carries out a plan needs no exit of its own:
one that stops at a bot without a command never does, since the checks have stopped there before
(`executeOrStop_of_checkPlan`), and a step that takes its commands from a source does not miss any.
A step that succeeds and one that fails late have this in common, that they carry out the plan they
have read, and that it is legal (`exists_legal_of_runStep`).

This is shown of every state that a run can be in (`Accepted`, `Attempts`), also of one that a
failed step has left and of one whose first bot stands in matter.
-/

namespace VoxelSwarm

/-- The error is about a plan, so it has nothing to do with where the commands come from. -/
def StepError.OfPlan : StepError → Prop
  | .parse _ | .ungrounded _ => False
  | _ => True

/-- The plan has been carried out: the step succeeds, or it fails because matter floats now. -/
def CarriedOut {α : Type} : Except StepError α → Prop
  | .ok _ => True
  | .error e => ∃ n, e = .ungrounded n

namespace State

variable {s s₀ t : State} {rules : Rules} {plan : Plan} {ids : List BotId} {id : BotId}
  {e : StepError} {result : Except StepError StepReport}

/-! ## Errors of the checks -/

theorem checkBot_eq_error (h : s.checkBot rules plan id = .error e) :
    plan.command? id = none ∧ e = .missingCommand id ∨
      ∃ c, (∃ cause, e = .invalidCommand id cause) ∨ ∃ cause, e = .precondition id c cause := by
  rw [checkBot] at h
  cases hc : plan.command? id with
  | none =>
    rw [hc] at h
    exact .inl ⟨rfl, (Except.error.inj h).symm⟩
  | some c =>
    refine .inr ⟨c, ?_⟩
    simp only [hc, seq_eq_error_iff] at h
    rcases h with h | ⟨-, h⟩
    · cases hcheck : c.check with
      | error cause =>
        rw [hcheck] at h
        exact .inl ⟨cause, (Except.error.inj h).symm⟩
      | ok _ =>
        rw [hcheck] at h
        cases h
    · cases hcheck : s.checkPrecondition rules plan id c with
      | error cause =>
        rw [hcheck] at h
        exact .inr ⟨cause, (Except.error.inj h).symm⟩
      | ok _ =>
        rw [hcheck] at h
        cases h

theorem checkPlan_eq_error (h : s.checkPlan rules plan ids = .error e) :
    (∃ id ∈ ids, s.checkBot rules plan id = .error e) ∨ ∃ clash, e = .interference clash := by
  rw [checkPlan, seq_eq_error_iff] at h
  rcases h with h | ⟨-, h⟩
  · exact .inl (exists_of_checkBots h)
  · unfold checkFootprints at h
    split at h
    · next clash _ => exact .inr ⟨clash, (Except.error.inj h).symm⟩
    · cases h

theorem ofPlan_of_checkPlan (h : s.checkPlan rules plan ids = .error e) : e.OfPlan := by
  rcases checkPlan_eq_error h with ⟨id, -, hbot⟩ | ⟨clash, rfl⟩
  · rcases checkBot_eq_error hbot with ⟨-, rfl⟩ | ⟨c, ⟨cause, rfl⟩ | ⟨cause, rfl⟩⟩ <;> trivial
  · trivial

theorem ne_missingCommand_of_checkPlan (hcommands : ∀ id ∈ ids, ∃ c, plan.command? id = some c)
    (h : s.checkPlan rules plan ids = .error e) (k : BotId) : e ≠ .missingCommand k := by
  rcases checkPlan_eq_error h with ⟨id, hid, hbot⟩ | ⟨clash, rfl⟩
  · obtain ⟨c, hc⟩ := hcommands id hid
    rcases checkBot_eq_error hbot with ⟨hnone, -⟩ | ⟨_, ⟨cause, rfl⟩ | ⟨cause, rfl⟩⟩
    · exact nomatch hc.symm.trans hnone
    · simp
    · simp
  · simp

theorem exists_command?_of_checkPlan (h : s.checkPlan rules plan ids = .ok ()) :
    ∀ id ∈ ids, ∃ c, plan.command? id = some c := by
  rw [checkPlan, seq_eq_ok_iff] at h
  intro id hid
  have hbot := checkBots_eq_ok_iff.1 h.1 id hid
  cases hc : plan.command? id with
  | none =>
    rw [checkBot, hc] at hbot
    cases hbot
  | some c => exact ⟨c, rfl⟩

/-! ## Plans that are carried out -/

theorem checkPlan_of_resolveStep (h : s.resolveStep rules plan ids = (result, t))
    (hdone : CarriedOut result) :
    s.checkPlan rules plan ids = .ok () ∧ (s.executeAll plan ids).1 = t := by
  rcases resolveStep_cases h with ⟨e, hcheck, rfl, -⟩ | ⟨hok, ht, -⟩
  · obtain ⟨n, rfl⟩ := hdone
    exact (ofPlan_of_checkPlan hcheck).elim
  · exact ⟨hok, ht⟩

/-- What a step carries out is the plan that it has read, and that plan is legal. -/
theorem exists_legal_of_runStep {σ : Type} [CommandSource σ] {src src' : σ} (hs : s.Seated)
    (h : s.runStep rules src = (result, t, src')) (hdone : CarriedOut result) :
    ∃ plan, readPlan s.activeIds Plan.empty src = (.ok plan, src') ∧ s.Legal rules plan ∧
      (s.executeAll plan s.activeIds).1 = t := by
  rcases readPlan_of_runStep h with ⟨cause, -, rfl, -⟩ | ⟨plan, hread, hresolve⟩
  · exact nomatch hdone.choose_spec
  · obtain ⟨hok, ht⟩ := checkPlan_of_resolveStep hresolve hdone
    exact ⟨plan, hread, (checkPlan_eq_ok_iff hs (covers_of_readPlan hs hread)).1 hok, ht⟩

/-! ## A loop with an exit -/

/-- Carries out the commands of bots in turn, and stops at one that has none. -/
def executeOrStop (plan : Plan) : State × Bool → List BotId → Except StepError (State × Bool)
  | now, [] => .ok now
  | (s, earlier), id :: rest =>
    match plan.command? id with
    | none => .error (.missingCommand id)
    | some c =>
      let (after, changed) := s.execute plan id c
      executeOrStop plan (after, earlier || changed) rest

theorem executeOrStop_eq_foldl (hcommands : ∀ id ∈ ids, ∃ c, plan.command? id = some c)
    (now : State × Bool) :
    executeOrStop plan now ids = .ok (ids.foldl (executeBot plan) now) := by
  induction ids generalizing now with
  | nil => rfl
  | cons id ids ih =>
    obtain ⟨hfirst, hrest⟩ := List.forall_mem_cons.1 hcommands
    obtain ⟨c, hc⟩ := hfirst
    simp only [executeOrStop, List.foldl_cons, executeBot, hc]
    exact ih hrest _

/-- After the checks the exit is out of reach. -/
theorem executeOrStop_of_checkPlan (h : s.checkPlan rules plan ids = .ok ()) :
    executeOrStop plan (s.charge (Energy.passive s ids.length), false) ids =
      .ok (s.executeAll plan ids) :=
  executeOrStop_eq_foldl (exists_command?_of_checkPlan h) _

/-! ## States that a run can be in -/

/-- A state that a run starts from, or that has been put together or installed, and so checked. -/
inductive Accepted (s : State) : Prop
  | initial {source target : Option Matrix} (source_consistent : ∀ m ∈ source, m.Consistent)
    (target_consistent : ∀ m ∈ target, m.Consistent) (built : initial source target = .ok s)
  | ofBots {matrix target : Matrix} {bots : List Bot} {energy : Int} {harmonics : Harmonics}
    {halted : Bool} (consistent : matrix.Consistent)
    (built : ofBots matrix target bots energy harmonics halted = .ok s)
  | checked (consistent : s.matrix.Consistent) (check : s.checkWellFormed = .ok ())

theorem ofBots_eq_ok {matrix target : Matrix} {bots : List Bot} {energy : Int}
    {harmonics : Harmonics} {halted : Bool}
    (h : ofBots matrix target bots energy harmonics halted = .ok s) :
    s.matrix = matrix ∧ s.checkWellFormed = .ok () := by
  unfold ofBots at h
  cases hslots : fillSlots [] idleSlots bots with
  | error why =>
    rw [hslots] at h
    cases h
  | ok slots =>
    rw [hslots] at h
    cases hcheck : checkWellFormed ⟨matrix, target, slots, energy, harmonics, halted⟩ with
    | error why =>
      simp only [bind, Except.bind, hcheck] at h
      cases h
    | ok _ =>
      simp only [bind, Except.bind, hcheck] at h
      obtain rfl := Except.ok.inj h
      exact ⟨rfl, hcheck⟩

theorem consistent_of_initial {source target : Option Matrix}
    (hsource : ∀ m ∈ source, m.Consistent) (h : initial source target = .ok s) :
    s.matrix.Consistent := by
  cases source with
  | none =>
    cases target with
    | none => cases h
    | some target =>
      obtain rfl := Except.ok.inj h
      exact .empty _
  | some source =>
    cases target with
    | none =>
      obtain rfl := Except.ok.inj h
      exact hsource source rfl
    | some target =>
      rw [initial] at h
      cases hsame : source.checkSameResolution target with
      | error why =>
        rw [hsame] at h
        cases h
      | ok _ =>
        rw [hsame] at h
        obtain rfl := Except.ok.inj h
        exact hsource source rfl

theorem Accepted.orderly (h : s.Accepted) : s.Orderly := by
  cases h with
  | initial _ _ built => exact orderly_of_initial built
  | ofBots _ built => exact (checkWellFormed_eq_ok_iff.1 (ofBots_eq_ok built).2).1.orderly
  | checked _ check => exact (checkWellFormed_eq_ok_iff.1 check).1.orderly

theorem Accepted.consistent (h : s.Accepted) : s.matrix.Consistent := by
  cases h with
  | initial hsource _ built => exact consistent_of_initial hsource built
  | ofBots consistent built =>
    rw [(ofBots_eq_ok built).1]
    exact consistent
  | checked consistent _ => exact consistent

theorem Orderly.midway_self (h : s.Orderly) (hm : s.matrix.Consistent)
    (hl : s.Legal rules plan) :
    Midway s plan (s.energy + Energy.passive s s.activeCount) s.activeBots
      (s.executeAll plan s.activeIds).1 (s.executeAll plan s.activeIds).2 :=
  hl.midway_executeAll h.arranged hm (List.Perm.refl _)

theorem Attempts.consistent (hrun : Attempts s t) (h : s.Orderly) (hm : s.matrix.Consistent) :
    t.matrix.Consistent := by
  induction hrun with
  | none => exact hm
  | step first _ ih =>
    rcases runStep_cases h.seated first with rfl | ⟨plan, hl, rfl⟩
    · exact ih h hm
    · exact ih (h.executeAll hl) (h.midway_self hm hl).consistent

/-! ## How a step fails -/

theorem eq_of_runStep {σ : Type} [CommandSource σ] {src src' : σ}
    (h : s.runStep rules src = (.error e, t, src')) : t = s ∨ ∃ n, e = .ungrounded n := by
  rcases readPlan_of_runStep h with ⟨_, -, -, rfl⟩ | ⟨plan, -, hresolve⟩
  · exact .inl rfl
  · rcases resolveStep_cases hresolve with ⟨_, -, -, heq⟩ | ⟨-, -, hdone | ⟨hfloats, -⟩⟩
    · exact .inl heq
    · cases hdone
    · exact .inr ⟨_, Except.error.inj hfloats⟩

/-- The plan has passed the checks and has been carried out to its end, in a loop that could have
stopped early, and after it `n` voxels float. -/
structure LeftFloating (s : State) (rules : Rules) (plan : Plan) (t : State) (n : Nat) : Prop where
  check : s.checkPlan rules plan s.activeIds = .ok ()
  executed : ∃ changed, executeOrStop plan (s.charge (Energy.passive s s.activeIds.length), false)
    s.activeIds = .ok (t, changed)
  outcome : s.Outcome plan t
  floating : n = {p | t.matrix.Floats p}.ncard
  pos : 0 < n

/-- A step that takes its commands from a source misses none of them, and it fails before it has
changed anything, or after it has carried out everything and because matter floats. -/
theorem runStep_eq_error {σ : Type} [CommandSource σ] {src src' : σ} (h : s.Orderly)
    (hm : s.matrix.Consistent) (hstep : s.runStep rules src = (.error e, t, src')) :
    (∀ id, e ≠ .missingCommand id) ∧ ((∀ n, e ≠ .ungrounded n) → t = s) ∧
      ∀ n, e = .ungrounded n → ∃ plan,
        readPlan s.activeIds Plan.empty src = (.ok plan, src') ∧ s.LeftFloating rules plan t n := by
  refine ⟨?_, fun hnot => ?_, ?_⟩
  · rintro id rfl
    rcases readPlan_of_runStep hstep with ⟨_, -, hcause, -⟩ | ⟨plan, hread, hresolve⟩
    · cases hcause
    · have hcovers := covers_of_readPlan h.seated hread
      rcases resolveStep_cases hresolve with ⟨_, hcheck, hcause, -⟩ | ⟨-, -, hcause | ⟨hcause, -⟩⟩
      · obtain rfl := Except.error.inj hcause
        exact ne_missingCommand_of_checkPlan (fun id hid => (hcovers id).2 hid) hcheck id rfl
      · cases hcause
      · cases hcause
  · rcases eq_of_runStep hstep with heq | ⟨n, rfl⟩
    · exact heq
    · exact absurd rfl (hnot n)
  · rintro n rfl
    rcases readPlan_of_runStep hstep with ⟨_, -, hcause, -⟩ | ⟨plan, hread, hresolve⟩
    · cases hcause
    · refine ⟨plan, hread, ?_⟩
      rcases resolveStep_cases hresolve with
        ⟨_, hcheck, hcause, -⟩ | ⟨hok, rfl, hcause | ⟨hcause, -, hpos⟩⟩
      · obtain rfl := Except.error.inj hcause
        exact (ofPlan_of_checkPlan hcheck).elim
      · cases hcause
      · obtain rfl := StepError.ungrounded.inj (Except.error.inj hcause)
        have hl := (checkPlan_eq_ok_iff h.seated (covers_of_readPlan h.seated hread)).1 hok
        have hmid := h.midway_self hm hl
        exact ⟨hok, ⟨_, executeOrStop_of_checkPlan hok⟩, hmid.outcome hl h.arranged,
          Matrix.floatingCount_eq_ncard hmid.consistent, hpos⟩

end State

end VoxelSwarm
