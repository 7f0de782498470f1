import VoxelSwarm.Proofs.Step.Hollow
import VoxelSwarm.Proofs.Step.Runs

/-!
# Identifiers are conserved

A step either leaves the state alone or carries out a legal plan (`runStep_cases`), also when it
fails because matter floats. A legal plan that halts nobody hands identifiers from bot to bot and
loses none (`Orderly.identifiers_perm`), so for as long as a run has not halted its active bots and
their seeds are the forty identifiers it has started with, each one once (`identifiers_conserved`).
-/

namespace VoxelSwarm

namespace State

/-- The state that steps lead to, each with rules and a source of its own, whatever becomes of them:
a step may succeed, or fail and leave a state behind for the next one. -/
inductive Attempts : State → State → Prop
  | none (s : State) : Attempts s s
  | step {σ : Type} [CommandSource σ] {s t u : State} {rules : Rules} {src src' : σ}
      {result : Except StepError StepReport} (first : s.runStep rules src = (result, t, src'))
      (rest : Attempts t u) : Attempts s u

variable {s t : State} {rules : Rules} {plan : Plan} {result : Except StepError StepReport}
  {ids : List BotId}

/-! ## What becomes of a step -/

/-- A step fails and changes nothing, or carries out its plan, and then it fails only if matter
floats. -/
theorem resolveStep_cases (h : s.resolveStep rules plan ids = (result, t)) :
    (∃ e, s.checkPlan rules plan ids = .error e ∧ result = .error e ∧ t = s) ∨
      s.checkPlan rules plan ids = .ok () ∧ (s.executeAll plan ids).1 = t ∧
        (result = .ok ⟨ids.length, t.energy - s.energy, t.halted⟩ ∨
          result = .error (.ungrounded t.matrix.floatingCount) ∧
            t.groundingDue rules s.harmonics (s.executeAll plan ids).2 = true ∧
            0 < t.matrix.floatingCount) := by
  rw [resolveStep] at h
  cases hcheck : s.checkPlan rules plan ids with
  | error e =>
    simp only [hcheck, Prod.mk.injEq] at h
    exact Or.inl ⟨e, rfl, h.1.symm, h.2.symm⟩
  | ok _ =>
    simp only [hcheck] at h
    refine Or.inr ⟨rfl, ?_⟩
    split at h
    · next hfloats =>
      obtain ⟨rfl, rfl⟩ := Prod.mk.inj h
      exact ⟨rfl, Or.inr ⟨rfl, hfloats⟩⟩
    · obtain ⟨rfl, rfl⟩ := Prod.mk.inj h
      exact ⟨rfl, Or.inl rfl⟩

theorem runStep_cases {σ : Type} [CommandSource σ] {src src' : σ} (hs : s.Seated)
    (h : s.runStep rules src = (result, t, src')) :
    t = s ∨ ∃ plan, s.Legal rules plan ∧ (s.executeAll plan s.activeIds).1 = t := by
  rcases readPlan_of_runStep h with ⟨_, -, -, hsame⟩ | ⟨plan, hread, hresolve⟩
  · exact Or.inl hsame
  · rcases resolveStep_cases hresolve with ⟨_, -, -, hsame⟩ | ⟨hok, hdone, -⟩
    · exact Or.inl hsame
    · exact Or.inr ⟨plan, (checkPlan_eq_ok_iff hs (covers_of_readPlan hs hread)).1 hok, hdone⟩

/-! ## What a step that halts nobody keeps -/

theorem Orderly.identifiers_perm (h : s.Orderly) (hl : s.Legal rules plan)
    (hruns : ∀ b ∈ s.activeBots, plan.command? b.id ≠ some .halt) :
    (s.executeAll plan s.activeIds).1.identifiers.Perm s.identifiers := by
  obtain ⟨base, changed, hmid⟩ := h.midway hl
  have hkept := hmid.holdings_eq hl.hollow (Coherent.arranged h)
  have hnone : (s.hollow.activeBots.map fun b =>
      if plan.command? b.id = some .halt then holdings b else 0).sum = 0 := by
    refine List.sum_eq_zero fun x hx => ?_
    obtain ⟨b, hb, rfl⟩ := List.mem_map.1 hx
    exact if_neg (hruns b hb)
  rw [hnone, add_zero, Multiset.coe_eq_coe] at hkept
  rw [((alike_hollow s).executeAll plan s.activeIds).identifiers]
  exact hkept

/-! ## Steps in a row -/

theorem Attempts.orderly (hrun : Attempts s t) (h : s.Orderly) : t.Orderly := by
  induction hrun with
  | none => exact h
  | step first _ ih =>
    rcases runStep_cases h.seated first with rfl | ⟨plan, hl, rfl⟩
    · exact ih h
    · exact ih (h.executeAll hl)

theorem Attempts.running (hrun : Attempts s t) (h : s.Orderly) (ht : t.halted = false) :
    s.halted = false := by
  induction hrun with
  | none => exact ht
  | step first _ ih =>
    rcases runStep_cases h.seated first with rfl | ⟨plan, hl, rfl⟩
    · exact ih h ht
    · have hafter := ih (h.executeAll hl) ht
      by_contra hhalted
      rw [(h.halted_executeAll hl).2 (Or.inl (by simpa using hhalted))] at hafter
      cases hafter

theorem Attempts.identifiers_perm (hrun : Attempts s t) (h : s.Orderly) (ht : t.halted = false) :
    t.identifiers.Perm s.identifiers := by
  induction hrun with
  | none => exact List.Perm.refl _
  | step first rest ih =>
    rcases runStep_cases h.seated first with rfl | ⟨plan, hl, rfl⟩
    · exact ih h ht
    · have horderly := h.executeAll hl
      refine (ih horderly ht).trans (h.identifiers_perm hl fun b hb hc => ?_)
      -- a step that halts a bot would have ended the run
      have hafter := rest.running horderly ht
      rw [(h.halted_executeAll hl).2 (Or.inr ⟨b, hb, hc⟩)] at hafter
      cases hafter

theorem identifiers_start (source target : Matrix) :
    (start source target).identifiers = (List.range' 1 BotId.greatest).map BotId.ofIndex := by
  rw [identifiers, activeBots_start]
  decide +kernel

theorem identifiers_of_initial {source target : Option Matrix} (h : initial source target = .ok s) :
    s.identifiers = (List.range' 1 BotId.greatest).map BotId.ofIndex := by
  obtain ⟨m, m', rfl⟩ := exists_start_of_initial h
  exact identifiers_start ..

/-- The identifiers of the active bots together with their seeds: after any steps from the state
that a run starts from, also after steps that have failed, they are those from 1 to 40, each one
once, for as long as the run has not halted; and a step that halts nobody keeps them from any
coherent state. -/
theorem identifiers_conserved :
    (∀ (source target : Option Matrix) (s t : State), initial source target = .ok s →
      Attempts s t → t.halted = false →
      t.identifiers.Perm ((List.range' 1 BotId.greatest).map BotId.ofIndex)) ∧
    ∀ (s t : State) (rules : Rules) (plan : Plan) (result : Except StepError StepReport),
      s.Coherent → plan.Covers s → s.resolveStep rules plan s.activeIds = (result, t) →
      (∀ id ∈ s.activeIds, plan.command? id ≠ some .halt) → t.identifiers.Perm s.identifiers := by
  constructor
  · intro source target s t hinitial hrun ht
    rw [← identifiers_of_initial hinitial]
    exact hrun.identifiers_perm (orderly_of_initial hinitial) ht
  · intro s t rules plan result h hcovers hstep hruns
    rcases resolveStep_cases hstep with ⟨_, -, -, rfl⟩ | ⟨hok, rfl, -⟩
    · exact List.Perm.refl _
    · have hl := (checkPlan_eq_ok_iff h.toSeated hcovers).1 hok
      exact h.orderly.identifiers_perm hl fun b hb => hruns b.id (List.mem_map_of_mem hb)

/-! ## An example -/

/-- The state after the first bot has split off another one. -/
def launched : State :=
  ((start (Matrix.empty 3) (Matrix.empty 3)).runStep {}
    (CommandList.ofList [.fission ⟨1, 0, 0⟩ 0])).2.1

def launchPlan : Plan := Plan.empty.assign ⟨1⟩ (.fission ⟨1, 0, 0⟩ 0)

theorem launched_eq :
    launched = ((start (Matrix.empty 3) (Matrix.empty 3)).executeAll launchPlan [⟨1⟩]).1 := by
  have hids : (start (Matrix.empty 3) (Matrix.empty 3)).activeIds = [⟨1⟩] := by
    rw [start_eq]
    decide +kernel
  have hcheck : (start (Matrix.empty 3) (Matrix.empty 3)).checkPlan {} launchPlan
      (start (Matrix.empty 3) (Matrix.empty 3)).activeIds = .ok () := by
    rw [checkPlan, seq_eq_ok_iff, checkFootprints_eq_ok_iff (seated_start ..), start_eq]
    constructor
    · decide +kernel
    · decide +kernel
  have hread : readPlan [⟨1⟩] Plan.empty (CommandList.ofList [.fission ⟨1, 0, 0⟩ 0]) =
      (.ok launchPlan, ⟨[], 1⟩) := rfl
  rw [hids] at hcheck
  rw [launched, runStep, hids, hread]
  rcases resolveStep_cases (Prod.ext rfl rfl) with ⟨e, herror, -⟩ | ⟨-, hdone, -⟩
  · rw [hcheck] at herror
    cases herror
  · exact hdone.symm

theorem launched_activeIds : launched.activeIds = [⟨1⟩, ⟨2⟩] ∧ launched.halted = false := by
  rw [launched_eq, start_eq]
  constructor
  · decide +kernel
  · decide +kernel

theorem identifiers_of_launched :
    launched.identifiers.Perm ((List.range' 1 BotId.greatest).map BotId.ofIndex) ∧
      (crew.executeAll crewPlan crew.activeIds).1.identifiers.Perm crew.identifiers :=
  ⟨identifiers_conserved.1 (some (Matrix.empty 3)) none _ launched rfl (.step rfl (.none _))
      launched_activeIds.2,
    identifiers_conserved.2 crew _ {} crewPlan _ crew_coherent crew_covers crew_completes.resolves
      (by decide +kernel)⟩

end State

end VoxelSwarm
