import VoxelSwarm.Proofs.Session.Effects
import VoxelSwarm.Proofs.Session.Sources

/-!
# The life of a session

The status of a session agrees with its state: while it runs somebody is active, and once it has
halted nobody is. From then on, and from a failure on, it is at rest until a state is installed
(`lifecycle_safe`).
-/

namespace VoxelSwarm

namespace State

variable {s : State}

theorem activeCount_eq_zero_iff : s.activeCount = 0 ↔ s.activeBots = [] := List.length_eq_zero_iff

theorem Orderly.activeCount_pos (h : s.Orderly) (hgoes : s.halted = false) : 0 < s.activeCount := by
  refine Nat.pos_of_ne_zero fun hzero => ?_
  have hhalted := h.halted_iff.2 (activeCount_eq_zero_iff.1 hzero)
  exact nomatch hgoes.symm.trans hhalted

theorem Orderly.activeCount_eq_zero (h : s.Orderly) (hhalted : s.halted = true) :
    s.activeCount = 0 :=
  activeCount_eq_zero_iff.2 (h.halted_iff.1 hhalted)

def finished : State := ⟨Matrix.empty 3, Matrix.empty 3, idleSlots, 0, .low, true⟩

theorem finished_checkWellFormed : finished.checkWellFormed = .ok () := by decide +kernel

end State

namespace Session

variable {e e' : Session} {mode : RunMode} {result : Except StepError Status} {op : Operation}

/-! ## Halted sessions -/

theorem Drives.halted (h : Drives mode e result e') (hstatus : e'.status = .halted) :
    e'.state.halted = true := by
  cases h with
  | goes hrunning => exact nomatch hrunning.symm.trans hstatus
  | halts _ _ hhalted =>
    rw [state_publish]
    exact hhalted
  | fails => simp at hstatus

theorem halted_restored {s : State} (hstatus : (e.restored s).status = .halted) :
    (e.restored s).state.halted = true := by
  rw [status_restored] at hstatus
  split at hstatus
  · next hhalted => exact hhalted
  · cases hstatus

theorem Reachable.halted (h : Reachable e) (hstatus : e.status = .halted) :
    e.state.halted = true := by
  induction h with
  | create hcreate =>
    obtain ⟨s, -, rfl⟩ := exists_initial_of_create hcreate
    cases hstatus
  | perform op hbefore ih =>
    cases hbefore.sound.effect op with
    | installs _ hafter =>
      rw [hafter] at hstatus ⊢
      exact halted_restored hstatus
    | drives _ hdrives _ => exact hdrives.halted hstatus
    | rests _ _ hrests =>
      rw [hrests.state]
      exact ih (hrests.status.symm.trans hstatus)

/-! ## Sessions that are over -/

theorem Operation.installed?_eq_none
    (hrefused : ∀ s e', op = .setState s → e.setState s ≠ .ok e') : op.installed? = none := by
  cases op with
  | setState s =>
    rw [installed?]
    split
    · next hcheck => exact absurd (setState_eq_ok_iff.2 ⟨hcheck, rfl⟩) (hrefused s _ rfl)
    · rfl
  | _ => rfl

theorem Sound.rests_of_over (h : e.Sound) (hover : e.status ≠ .running)
    (hinstalled : op.installed? = none) : op.Rests e := by
  cases h.effect op with
  | installs hinstalls _ => exact nomatch hinstalled.symm.trans hinstalls
  | drives _ hdrives _ => exact absurd hdrives.running hover
  | rests _ _ hrests => exact hrests

/-- Whatever has been done to a session: while it runs, its state has not halted and has an active
bot; when it has halted, its state has halted and has none; and once it has halted or failed, what
is done to it changes its state, its status and its steps and is reported only if it installs a
state, and moves the trace only if it starts one. -/
theorem lifecycle_safe (h : Reachable e) :
    (e.status = .running → e.state.halted = false ∧ 0 < e.state.activeCount) ∧
    (e.status = .halted → e.state.halted = true ∧ e.state.activeCount = 0) ∧
    (e.status ≠ .running → ∀ op : Operation, (∀ s e', op = .setState s → e.setState s ≠ .ok e') →
      (op.perform e).state = e.state ∧ (op.perform e).status = e.status ∧
      (op.perform e).stepCount = e.stepCount ∧ (op.perform e).reports = e.reports ∧
      ((∀ bytes, op ≠ .setTrace bytes) → (op.perform e).trace = e.trace)) := by
  have horderly := h.sound.orderly
  refine ⟨fun hrunning => ?_, fun hhalted => ?_, fun hover op hrefused => ?_⟩
  · have hgoes := h.sound.running hrunning
    exact ⟨hgoes, horderly.activeCount_pos hgoes⟩
  · have hstate := h.halted hhalted
    exact ⟨hstate, horderly.activeCount_eq_zero hstate⟩
  · have hrests := h.sound.rests_of_over hover (Operation.installed?_eq_none hrefused)
    exact ⟨hrests.state, hrests.status, hrests.stepCount, hrests.reports, hrests.trace⟩

/-- A session runs, takes up a state that has halted and then stays with it, and one whose trace is
used up fails and cannot be driven on. -/
theorem lifecycle_safe_clearing :
    (clearing.status = .running ∧ 0 < clearing.state.activeCount) ∧
    ((Operation.setState State.finished).perform clearing).status = .halted ∧
      ((Operation.setState State.finished).perform clearing).state.activeCount = 0 ∧
    (Operation.runOneStep.perform clearing).status = .aborted ∧
      (Operation.runFull.perform (Operation.runOneStep.perform clearing)).state =
        (Operation.runOneStep.perform clearing).state := by
  have hinstall : clearing.setState State.finished = .ok (clearing.restored State.finished) :=
    setState_eq_ok_iff.2 ⟨State.finished_checkWellFormed, rfl⟩
  have hhalted : ((Operation.setState State.finished).perform clearing).status = .halted := by
    rw [Operation.perform, hinstall]
    rfl
  have haborted : (Operation.runOneStep.perform clearing).status = .aborted := by decide +kernel
  have hruns := lifecycle_safe reachable_clearing
  have hends := lifecycle_safe (reachable_clearing.perform (.setState State.finished))
  have hfails := lifecycle_safe (reachable_clearing.perform .runOneStep)
  exact ⟨⟨rfl, (hruns.1 rfl).2⟩, hhalted, (hends.2.1 hhalted).2, haborted,
    (hfails.2.2 (by simp [haborted]) .runFull (by rintro _ _ ⟨⟩)).1⟩

end Session

end VoxelSwarm
