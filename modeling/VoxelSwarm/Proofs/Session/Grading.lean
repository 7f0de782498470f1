import VoxelSwarm.Proofs.Session.Restore
import VoxelSwarm.Proofs.Step.Halting

/-!
# What a halted run has shown

A run that starts in a state that makes sense and comes to its end has earned it: the last step, and
no step before, was a halt of the first bot alone at the origin, and what the rules ask of the
matrix holds of it (`Steps.halting`). Looking for floating matter later, or never, lets every run
through that a stricter policy has let through, with the same final state (`drive_laxer`).

The second part compares two runs step by step. A step that goes well when every step looks for
floating matter leaves none under low harmonics, so the look at the halt finds none either.
-/

namespace VoxelSwarm

namespace Session

variable {σ : Type} [CommandSource σ] {src src₁ src' : σ} {e e' f : Session} {mode : RunMode}
  {status : Status} {report : StepReport} {rounds : List (State × Plan)} {lax : Rules}

/-! ## The steps of a run -/

theorem Takes.completes (h : e.Takes src report e' src') (horderly : e.state.Orderly) {plan : Plan}
    (hread : readPlan e.state.activeIds Plan.empty src = (.ok plan, src₁)) :
    e.state.Completes e.rules plan report e'.state :=
  State.completes_of_readPlan horderly.seated hread h.step

theorem Takes.halted_iff (h : e.Takes src report e' src') (horderly : e.state.Orderly) :
    e'.status = .halted ↔ e'.state.halted = true := by
  rw [h.status, ← (horderly.of_runStep h.step).2 report rfl]
  cases report.halted <;> simp

theorem Steps.goes (h : Steps rounds e src e' src') (horderly : e.state.Orderly)
    (hstart : e.status = .running → e.state.halted = false) (hrunning : e'.status = .running) :
    e'.state.halted = false ∧
      ∀ round ∈ rounds, ∀ id ∈ round.1.activeIds, round.2.command? id ≠ some .halt := by
  induction h with
  | none => exact ⟨hstart hrunning, by simp⟩
  | @step rounds plan e e₁ e' src src₁ src' report read first rest ih =>
    have hnext : e₁.state.halted = false := by
      by_contra hhalted
      have hover := (first.halted_iff horderly).2 (by simpa using hhalted)
      exact nomatch hover.symm.trans (rest.running hrunning)
    obtain ⟨hgoes, hrest⟩ := ih (horderly.of_runStep first.step).1 (fun _ => hnext) hrunning
    refine ⟨hgoes, List.forall_mem_cons.2 ⟨fun id hid hcommand => ?_, hrest⟩⟩
    have hhalted := ((first.completes horderly read).halted_iff horderly).2
      (.inr ⟨id, hid, hcommand⟩)
    exact nomatch hnext.symm.trans hhalted

theorem Steps.halting (hsteps : Steps rounds e src e' src') (h : e.Begins)
    (hm : e.state.matrix.Consistent) (hrunning : e.status = .running)
    (hhalted : e'.status = .halted) :
    ∃ before last plan, rounds = before ++ [(last, plan)] ∧
      (∀ round ∈ before, ∀ id ∈ round.1.activeIds, round.2.command? id ≠ some .halt) ∧
      last.Halting e.rules plan e'.state ∧
      (e.rules.grounding ≠ .never → ∀ p, e'.state.matrix.Full p → e'.state.matrix.Grounded p) := by
  have hcoherent := (State.checkWellFormed_eq_ok_iff.1 h.wellFormed).1
  have hne : rounds ≠ [] := by
    rintro rfl
    cases hsteps
    exact nomatch hrunning.symm.trans hhalted
  obtain ⟨before, last, plan, src₁, report, rfl, hbefore, hread, hlast⟩ := hsteps.eq_concat hne
  have hrun := hbefore.run hcoherent.orderly
  obtain ⟨hlast_coherent, hlast_consistent⟩ := hrun.coherent hcoherent hm
  obtain ⟨hgoes, hnone⟩ := hbefore.goes hcoherent.orderly h.goes hlast.running
  have hcompletes := hlast.completes hlast_coherent.orderly hread
  rw [hbefore.rules] at hcompletes
  have hhalting := hcompletes.halts hlast_coherent hlast_consistent hgoes
    ((hlast.halted_iff hlast_coherent.orderly).1 hhalted)
  refine ⟨before, last.state, plan, rfl, hnone, hhalting, fun hg => ?_⟩
  refine (Matrix.floatingCount_eq_zero_iff
    (hcompletes.consistent hlast_coherent hlast_consistent)).1 ?_
  refine hcompletes.grounded_of_halting hlast_coherent hlast_consistent hhalting hg fun hevery => ?_
  exact (State.checkWellFormed_eq_ok_iff.1 (hrun.wellFormed hevery hm h.wellFormed)).2

/-! ## Two runs side by side -/

/-- If every step that goes well under one set of rules does so under another one, and leaves what
makes the next one do so, then a run that goes well under the first goes well under the second. -/
theorem drive_laxer {I : Session → Prop}
    (hstep : ∀ {e e' : Session} {src src' : σ} {report : StepReport}, I e →
      e.Takes src report e' src' → e.state.runStep lax src = (.ok report, e'.state, src') ∧ I e')
    {more : σ → Bool} {fuel : Nat} (hI : I e) (hrules : f.rules = lax) (hstate : f.state = e.state)
    (hstatus : f.status = e.status)
    (h : drive mode more fuel e src = (.ok status, e', src')) :
    ∃ f', drive mode more fuel f src = (.ok status, f', src') ∧ f'.state = e'.state ∧
      f'.status = e'.status := by
  induction fuel generalizing e f src with
  | zero =>
    simp only [drive, Prod.mk.injEq, Except.ok.injEq] at h
    obtain ⟨rfl, rfl, rfl⟩ := h
    exact ⟨f, by rw [drive, hstatus], hstate, hstatus⟩
  | succ fuel ih =>
    rw [drive] at h
    split at h
    · next hgoes =>
      cases hadvance : e.advance mode src with
      | mk first after =>
      obtain ⟨e₁, src₁⟩ := after
      rw [hadvance] at h
      cases first with
      | error cause => cases h
      | ok status₁ =>
        obtain ⟨-, report, htakes⟩ := advance_eq_ok hgoes.1 hadvance
        obtain ⟨hrun, hnext⟩ := hstep hI htakes
        rw [← hrules, ← hstate] at hrun
        obtain ⟨f₁, hadvance', htakes', hstate'⟩ :=
          exists_takes mode (hstatus.trans hgoes.1) hrun
        have hstatus' : f₁.status = e₁.status := htakes'.status.trans htakes.status.symm
        obtain ⟨f', hrest⟩ := ih hnext (htakes'.rules.trans hrules) hstate' hstatus' h
        refine ⟨f', ?_, hrest.2⟩
        rw [drive, if_pos ⟨hstatus.trans hgoes.1, hgoes.2⟩, hadvance']
        exact hrest.1
    · next hstop =>
      simp only [Prod.mk.injEq, Except.ok.injEq] at h
      obtain ⟨rfl, rfl, rfl⟩ := h
      refine ⟨f, ?_, hstate, hstatus⟩
      rw [drive, hstatus, if_neg hstop]

theorem runFull_laxer {I : Session → Prop}
    (hstep : ∀ {e e' : Session} {r r' : TraceReader} {report : StepReport}, I e →
      e.Takes r report e' r' → e.state.runStep lax r = (.ok report, e'.state, r') ∧ I e')
    (hI : I e) (hrules : f.rules = lax) (hstate : f.state = e.state) (hstatus : f.status = e.status)
    (htrace : f.trace = e.trace) {energy : Int} (h : e.runFull = (.ok energy, e')) :
    ∃ f', f.runFull = (.ok energy, f') ∧ f'.state = e'.state ∧ f'.status = e'.status := by
  have haborted : e.status ≠ .aborted := by
    intro haborted
    rw [runFull, if_pos haborted] at h
    cases h
  rw [runFull_eq haborted] at h
  rw [runFull_eq (hstatus ▸ haborted), htrace]
  cases hdrive : drive .auto (fun _ => true) (e.trace.remaining + 1) e e.trace with
  | mk result after =>
  obtain ⟨e₁, r⟩ := after
  rw [hdrive] at h
  cases result with
  | error cause => cases h
  | ok status =>
    simp only [settle, Prod.mk.injEq, Except.ok.injEq] at h
    obtain ⟨rfl, rfl⟩ := h
    obtain ⟨f', hdrive', hstate', hstatus'⟩ :=
      drive_laxer hstep hI hrules hstate hstatus hdrive
    rw [hdrive']
    exact ⟨{ f' with trace := r }, by rw [settle, hstate'], hstate', hstatus'⟩

/-- A session that judges every step, between two steps that have gone well. -/
structure Watched (rules : Rules) (e : Session) : Prop where
  rules : e.rules = rules
  wellFormed : e.state.checkWellFormed = .ok ()
  consistent : e.state.matrix.Consistent
  goes : e.status = .running → e.state.halted = false

/-- What every step has looked for is not there at the halt. -/
theorem Watched.takes {rules : Rules} (hw : Watched rules e)
    (hg : rules.grounding = .everyStep) (hlax : lax.grounding = .atHalt)
    (htarget : rules.targetBeforeHalt = lax.targetBeforeHalt) (h : e.Takes src report e' src') :
    e.state.runStep lax src = (.ok report, e'.state, src') ∧ Watched rules e' := by
  obtain ⟨hcoherent, hground⟩ := State.checkWellFormed_eq_ok_iff.1 hw.wellFormed
  obtain ⟨plan, hread⟩ := h.exists_plan
  have hcompletes := h.completes hcoherent.orderly hread
  rw [hw.rules] at hcompletes
  have hstep := h.step
  rw [hw.rules] at hstep
  refine ⟨State.runStep_of_due htarget hstep fun _ hdue => ?_, h.rules.trans hw.rules,
    hcompletes.wellFormed hg hw.consistent hw.wellFormed,
    hcompletes.consistent hcoherent hw.consistent, fun hrunning => ?_⟩
  · have hhalted : e'.state.halted = true := by simpa [State.groundingDue, hlax] using hdue
    have hhalting := hcompletes.halts hcoherent hw.consistent (hw.goes h.running) hhalted
    exact hcompletes.grounded hg hcoherent hw.consistent hground hhalting.field
  · by_contra hhalted
    have hover := (h.halted_iff hcoherent.orderly).2 (by simpa using hhalted)
    rw [hover] at hrunning
    cases hrunning

/-- Grading is sound. A run from a state that makes sense halts with a halt of the first bot alone
at the origin under low harmonics, which no step before has been, and what the rules ask of the
matrix is so: it is the target, and every full voxel is grounded. And a policy that looks for
floating matter later lets through, with the same energy and the same final state, every run to the
end of a trace that one lets through which looks for it earlier. -/
theorem grading_sound (h : e.Begins) (hm : e.state.matrix.Consistent) :
    (∀ {σ : Type} [CommandSource σ] (rounds : List (State × Plan)) (src src' : σ) (e' : Session),
      e.status = .running → Steps rounds e src e' src' → e'.status = .halted →
        ∃ before last plan, rounds = before ++ [(last, plan)] ∧
          (∀ round ∈ before, ∀ id ∈ round.1.activeIds, round.2.command? id ≠ some .halt) ∧
          last.Halting e.rules plan e'.state ∧
          (e.rules.grounding ≠ .never →
            ∀ p, e'.state.matrix.Full p → e'.state.matrix.Grounded p)) ∧
    ∀ (f e' : Session) (energy : Int), f.state = e.state → f.status = e.status →
      f.trace = e.trace → f.rules.targetBeforeHalt = e.rules.targetBeforeHalt →
      (e.rules.grounding = .everyStep ∧ f.rules.grounding = .atHalt ∨
        e.rules.grounding = .atHalt ∧ f.rules.grounding = .never) →
      e.runFull = (.ok energy, e') →
        ∃ f', f.runFull = (.ok energy, f') ∧ f'.state = e'.state ∧ f'.status = e'.status := by
  constructor
  · intro σ _ rounds src src' e' hrunning hsteps hhalted
    exact hsteps.halting h hm hrunning hhalted
  · rintro f e' energy hstate hstatus htrace htarget (⟨hg, hlax⟩ | ⟨-, hnever⟩) hrun
    · exact runFull_laxer (I := Watched e.rules)
        (fun hw htakes => hw.takes hg hlax htarget.symm htakes) ⟨rfl, h.wellFormed, hm, h.goes⟩ rfl
        hstate hstatus htrace hrun
    · refine runFull_laxer (I := fun e₁ => e₁.rules = e.rules) (fun hsame htakes => ?_) rfl rfl
        hstate hstatus htrace hrun
      have hstep := htakes.step
      rw [hsame] at hstep
      refine ⟨State.runStep_of_due htarget.symm hstep fun _ hdue => ?_, htakes.rules.trans hsame⟩
      rw [State.groundingDue, hnever] at hdue
      cases hdue

def onePost : Session :=
  (ofState ⟨Matrix.empty 3, Matrix.empty 3, State.foundingSlots, 0, .low, false⟩ {}).setTrace
    [0xb3, 0xff]

theorem grading_sound_onePost :
    ∃ rounds e' r, Steps rounds onePost onePost.trace e' r ∧ e'.status = .halted ∧
      rounds.length = 2 ∧ e'.state.matrix.fullCount = 1 ∧
      (∀ p, e'.state.matrix.Full p → e'.state.matrix.Grounded p) ∧
      ∃ energy f', { onePost with rules := ⟨.atHalt, false⟩ }.runFull = (.ok energy, f') ∧
        f'.state = e'.state ∧ f'.status = .halted := by
  have hbegins : onePost.Begins := ⟨by decide +kernel, rfl, rfl⟩
  have hconsistent : onePost.state.matrix.Consistent := .empty 3
  -- the first step fills
  have hids : onePost.state.activeIds = [⟨1⟩] := by decide +kernel
  obtain ⟨e₁, -, htakes₁, hstate₁, htrace₁⟩ := exists_takes_of_runStep (e := onePost) rfl
    (State.runStep_alone (c := .fill ⟨1, 0, 0⟩) hids (by rfl) (by decide +kernel) rfl
      (by decide +kernel))
  have hrunning₁ : e₁.status = .running := htakes₁.status.trans (by decide +kernel)
  -- the second one halts
  have hids₁ : e₁.state.activeIds = [⟨1⟩] := by
    rw [hstate₁]
    decide +kernel
  obtain ⟨e₂, -, htakes₂, hstate₂, -⟩ := exists_takes_of_runStep hrunning₁
    (State.runStep_alone (c := .halt) hids₁ (by rw [htrace₁]; rfl)
      (by rw [hstate₁, htakes₁.rules]; decide +kernel) rfl
      (by rw [hstate₁, htakes₁.rules]; decide +kernel))
  have hstatus₂ : e₂.status = .halted :=
    htakes₂.status.trans (by rw [hstate₁]; decide +kernel)
  obtain ⟨plan₁, hread₁⟩ := htakes₁.exists_plan
  obtain ⟨plan₂, hread₂⟩ := htakes₂.exists_plan
  have hsteps := Steps.step hread₁ htakes₁ (.step hread₂ htakes₂ (.none e₂ e₂.trace))
  obtain ⟨before, last, plan, hrounds, -, -, hgrounded⟩ :=
    (grading_sound hbegins hconsistent).1 _ _ _ e₂ rfl hsteps hstatus₂
  have hsound := hbegins.sound [0xb3, 0xff]
  have hrun : onePost.runFull.1 = .ok e₂.state.energy ∧ onePost.runFull.2.state = e₂.state ∧
      onePost.runFull.2.status = .halted := by
    have halike := (htakes₁.runFull hsound).trans (htakes₂.runFull (htakes₁.sound hsound))
    rw [runFull_of_halted hstatus₂] at halike
    exact ⟨halike.result, halike.session.state, halike.session.status.trans hstatus₂⟩
  obtain ⟨f', hlax, hstate', hstatus'⟩ := (grading_sound hbegins hconsistent).2
    { onePost with rules := ⟨.atHalt, false⟩ } _ _ rfl rfl rfl rfl (.inl ⟨rfl, rfl⟩)
    (Prod.ext hrun.1 rfl)
  refine ⟨_, e₂, _, hsteps, hstatus₂, rfl, ?_, hgrounded (by decide), _, f', hlax,
    hstate'.trans hrun.2.1, hstatus'.trans hrun.2.2⟩
  rw [hstate₂, hstate₁]
  decide +kernel

end Session

end VoxelSwarm
