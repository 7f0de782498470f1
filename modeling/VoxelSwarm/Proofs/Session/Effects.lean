import Mathlib.Logic.Relation
import VoxelSwarm.Proofs.Session.Restore

/-!
# What operations do

An operation installs a state, or it makes a running session take steps, or it leaves the run as it
is (`Sound.effect`). All steps of one operation are driven in one mode. They carry out legal plans,
and the session runs on, halts or fails in the end, which is told to whoever observes it in the last
two cases only (`Drives`).
-/

namespace VoxelSwarm

namespace State

/-- The commands of a legal plan make `t` of `s`. -/
def CarriesOut (rules : Rules) (s t : State) : Prop :=
  ∃ plan, s.Legal rules plan ∧ (s.executeAll plan s.activeIds).1 = t

/-- Legal plans, one after the other, make `t` of `s`. -/
def Evolves (rules : Rules) : State → State → Prop := Relation.ReflTransGen (CarriesOut rules)

variable {s t : State} {rules : Rules} {plan : Plan} {result : Except StepError StepReport}

/-- A legal plan is carried out to its end or not at all, also when the step fails. -/
theorem Orderly.evolves_of_resolveStep (h : s.Orderly)
    (honly : ∀ id c, plan.command? id = some c → id ∈ s.activeIds)
    (hstep : s.resolveStep rules plan s.activeIds = (result, t)) : Evolves rules s t := by
  rcases resolveStep_cases hstep with ⟨_, -, -, rfl⟩ | ⟨hok, hdone, -⟩
  · exact .refl
  · exact .single ⟨plan, legal_of_checkPlan h.seated honly hok, hdone⟩

theorem Orderly.evolves_of_runStep {σ : Type} [CommandSource σ] {src src' : σ} (h : s.Orderly)
    (hstep : s.runStep rules src = (result, t, src')) : Evolves rules s t := by
  rcases runStep_cases h.seated hstep with rfl | hcarries
  · exact .refl
  · exact .single hcarries

end State

namespace Session

variable {σ : Type} [CommandSource σ] {src src' : σ} {e e₁ e' : Session} {mode : RunMode}
  {t : State} {result : Except StepError Status}

/-! ## Steps of one mode -/

/-- The session after steps that it has taken in a given mode, unless its run had one before. -/
def stepped (e : Session) (mode : RunMode) (t : State) (n : Nat) (r : TraceReader) : Session :=
  { e with
    state := t
    trace := r
    stepCount := n
    mode := some (e.mode.getD mode)
    staged := Plan.empty }

/-- A running session takes steps in a given mode, or tries to take one. How many are counted and
where the trace goes on is left open. -/
inductive Drives (mode : RunMode) (e : Session) : Except StepError Status → Session → Prop
  | goes {t : State} {n : Nat} {r : TraceReader} (running : e.status = .running)
    (evolves : State.Evolves e.rules e.state t) (goes : t.halted = false) :
    Drives mode e (.ok .running) (e.stepped mode t n r)
  | halts {t : State} {n : Nat} {r : TraceReader} (running : e.status = .running)
    (evolves : State.Evolves e.rules e.state t) (halted : t.halted = true) :
    Drives mode e (.ok .halted)
      ({ e.stepped mode t n r with status := .halted }.publish (.success t.energy))
  | fails {t : State} {n : Nat} {r : TraceReader} {cause : StepError} (running : e.status = .running)
    (evolves : State.Evolves e.rules e.state t) :
    Drives mode e (.error cause)
      ({ e.stepped mode t n r with status := .aborted }.publish
        (.failure cause.kind cause.message))

namespace Drives

theorem running (h : Drives mode e result e') : e.status = .running := by
  cases h <;> assumption

theorem evolves (h : Drives mode e result e') : State.Evolves e.rules e.state e'.state := by
  cases h <;> assumption

theorem withTrace (h : Drives mode e result e') (r : TraceReader) :
    Drives mode e result { e' with trace := r } := by
  cases h with
  | goes hrunning hevolves hgoes => exact .goes (r := r) hrunning hevolves hgoes
  | halts hrunning hevolves hhalted => exact .halts (r := r) hrunning hevolves hhalted
  | fails hrunning hevolves => exact .fails (r := r) hrunning hevolves

theorem trans (h : Drives mode e (.ok .running) e₁) (h' : Drives mode e₁ result e') :
    Drives mode e result e' := by
  cases h with
  | goes hrunning hevolves _ =>
  cases h' with
  | goes _ hevolves' hgoes => exact .goes hrunning (hevolves.trans hevolves') hgoes
  | halts _ hevolves' hhalted => exact .halts hrunning (hevolves.trans hevolves') hhalted
  | fails _ hevolves' => exact .fails hrunning (hevolves.trans hevolves')

end Drives

theorem beginRun_eq (e : Session) (mode : RunMode) :
    e.beginRun mode = { e with mode := some (e.mode.getD mode) } := by
  rw [beginRun]
  cases e.mode <;> rfl

theorem drives_conclude {step : Except StepError StepReport} (hrunning : e.status = .running)
    (hevolves : State.Evolves e.rules e.state t)
    (hhalted : ∀ report, step = .ok report → report.halted = t.halted) :
    Drives mode e ({ e.beginRun mode with state := t, staged := Plan.empty }.conclude step).1
      ({ e.beginRun mode with state := t, staged := Plan.empty }.conclude step).2 := by
  rw [beginRun_eq]
  cases step with
  | error cause => exact .fails hrunning hevolves
  | ok report =>
    have hreport := hhalted report rfl
    rw [conclude]
    split
    · next h => exact .halts hrunning hevolves (hreport.symm.trans h)
    · next h =>
      have hgoes : t.halted = false := hreport.symm.trans (Bool.eq_false_iff.2 h)
      have hdrives : Drives mode e (.ok .running) (e.stepped mode t (e.stepCount + 1) e.trace) :=
        .goes hrunning hevolves hgoes
      rwa [← hrunning] at hdrives

theorem Sound.drives_advance (h : e.Sound) (hrunning : e.status = .running)
    (hadvance : e.advance mode src = (result, e', src')) : Drives mode e result e' := by
  rw [Session.advance, if_neg (not_not.2 hrunning)] at hadvance
  cases hstep : e.state.runStep e.rules src with
  | mk step after =>
  obtain ⟨t, src₁⟩ := after
  rw [hstep] at hadvance
  obtain ⟨rfl, rfl, rfl⟩ := hadvance
  exact drives_conclude hrunning (h.orderly.evolves_of_runStep hstep)
    (h.orderly.of_runStep hstep).2

theorem Sound.drives_commitStagedStep (h : e.Sound) (hrunning : e.status = .running) :
    Drives .interactive e e.commitStagedStep.1 e.commitStagedStep.2 := by
  rw [Session.commitStagedStep, if_neg (not_not.2 hrunning)]
  cases hstep : e.state.resolveStep e.rules e.staged e.state.activeIds with
  | mk step t =>
  exact drives_conclude hrunning (h.orderly.evolves_of_resolveStep h.staged hstep)
    (h.orderly.of_resolveStep h.staged hstep).2

theorem Sound.drives_drive (h : e.Sound) {more : σ → Bool} {fuel : Nat}
    (hdrive : Session.drive mode more fuel e src = (result, e', src')) :
    Drives mode e result e' ∨
      ¬(e.status = .running ∧ more src = true ∧ 0 < fuel) ∧ result = .ok e.status ∧ e' = e := by
  induction fuel generalizing e src with
  | zero =>
    obtain ⟨rfl, rfl, rfl⟩ := hdrive
    exact .inr ⟨fun hgoes => absurd hgoes.2.2 (Nat.lt_irrefl 0), rfl, rfl⟩
  | succ fuel ih =>
    rw [Session.drive] at hdrive
    split at hdrive
    · next hgoes =>
      left
      have hnext := h.advance mode src
      cases hadvance : e.advance mode src with
      | mk first after =>
      obtain ⟨e₁, src₁⟩ := after
      have hfirst := h.drives_advance hgoes.1 hadvance
      rw [hadvance] at hdrive hnext
      cases first with
      | error cause =>
        obtain ⟨rfl, rfl, rfl⟩ := hdrive
        exact hfirst
      | ok status =>
        obtain ⟨rfl, -⟩ := advance_eq_ok hgoes.1 hadvance
        rcases ih hnext hdrive with hrest | ⟨-, rfl, rfl⟩
        · rw [hrest.running] at hfirst
          exact hfirst.trans hrest
        · exact hfirst
    · next hrest =>
      obtain ⟨rfl, rfl, rfl⟩ := hdrive
      exact .inr ⟨fun hgoes => hrest ⟨hgoes.1, hgoes.2.1⟩, rfl, rfl⟩

/-! ## Operations -/

namespace Operation

/-- The mode in which an operation takes steps, if it takes any. -/
def mode? : Operation → Option RunMode
  | .runFull => some .auto
  | .runOneStep | .commitStagedStep => some .interactive
  | .runCommands cs => if cs.isEmpty then none else some .interactive
  | _ => none

/-- The state that an operation installs, if it does. -/
def installed? : Operation → Option State
  | .setState s => match s.checkWellFormed with
    | .ok _ => some s
    | .error _ => none
  | _ => none

def error? {ε α : Type} : Except ε α → Option ε
  | .ok _ => none
  | .error why => some why

/-- The error that an operation on a session gives. That a state is refused is another matter. -/
def failure? (e : Session) : Operation → Option SessionError
  | .runOneStep => (error? e.runOneStep.1).map .step
  | .runFull => error? e.runFull.1
  | .runCommands cs => (error? (e.runCommands cs).1).map .step
  | .checkCommand c => error? (e.checkCommand c)
  | .stageCommand c => error? (e.stageCommand c)
  | .commitStagedStep => (error? e.commitStagedStep.1).map .step
  | _ => none

/-- The operation leaves the run of a session as it is. The trace is another one only if the
operation has started it. -/
structure Rests (op : Operation) (e : Session) : Prop where
  state : (op.perform e).state = e.state
  rules : (op.perform e).rules = e.rules
  trace : (∀ bytes, op ≠ .setTrace bytes) → (op.perform e).trace = e.trace
  status : (op.perform e).status = e.status
  stepCount : (op.perform e).stepCount = e.stepCount
  observed : e.observed = true → (op.perform e).observed = true
  mode : (op.perform e).mode = e.mode
  reports : (op.perform e).reports = e.reports

/-- What an operation does to a session. -/
inductive Effect (op : Operation) (e : Session) : Prop
  | installs {s : State} (installed : op.installed? = some s) (after : op.perform e = e.restored s)
  | drives {mode : RunMode} {result : Except StepError Status} (mode_eq : op.mode? = some mode)
    (drives : Drives mode e result (op.perform e))
    (failure : op.failure? e = (error? result).map .step)
  | rests (installed : op.installed? = none) (idle : op.mode? = none ∨ e.status ≠ .running)
    (rests : op.Rests e)

variable {op : Operation}

theorem installed?_of_mode? (h : op.mode? = some mode) : op.installed? = none := by
  cases op with
  | setState s => cases h
  | _ => rfl

theorem rests_of_eq (h : op.perform e = e) : op.Rests e := by
  constructor <;> simp [h]

theorem effect_of_steps (hmode : op.mode? = some mode)
    (hsteps : e.status = .running → ∃ result, Drives mode e result (op.perform e) ∧
      op.failure? e = (error? result).map .step)
    (hover : e.status ≠ .running → op.perform e = e) : op.Effect e := by
  by_cases hrunning : e.status = .running
  · obtain ⟨result, hdrives, hfailure⟩ := hsteps hrunning
    exact .drives hmode hdrives hfailure
  · exact .rests (installed?_of_mode? hmode) (.inr hrunning) (rests_of_eq (hover hrunning))

end Operation

theorem drive_of_rest {more : σ → Bool} (hrest : ¬(e.status = .running ∧ more src = true))
    (fuel : Nat) : drive mode more fuel e src = (.ok e.status, e, src) := by
  cases fuel with
  | zero => rfl
  | succ fuel => rw [drive, if_neg hrest]

theorem Sound.effect_runOneStep (h : e.Sound) : Operation.runOneStep.Effect e := by
  refine Operation.effect_of_steps rfl (fun hrunning => ?_) (fun hover => ?_)
  · have hdrives : Drives .interactive e (e.advance .interactive e.trace).1
        (e.advance .interactive e.trace).2.1 := h.drives_advance hrunning rfl
    exact ⟨_, hdrives.withTrace _, rfl⟩
  · simp only [Operation.perform, runOneStep, Session.advance, if_pos hover]

theorem Sound.effect_runFull (h : e.Sound) : Operation.runFull.Effect e := by
  refine Operation.effect_of_steps rfl (fun hrunning => ?_) (fun hover => ?_)
  · have hgoes : e.status ≠ .aborted := by simp [hrunning]
    cases hdrive : Session.drive .auto (fun _ => true) (e.trace.remaining + 1) e e.trace with
    | mk result after =>
    obtain ⟨e', r⟩ := after
    rcases h.drives_drive hdrive with hdrives | ⟨hrest, -, -⟩
    · refine ⟨result, ?_, ?_⟩
      · rw [Operation.perform, runFull, if_neg hgoes, hdrive]
        cases result <;> exact hdrives.withTrace r
      · rw [Operation.failure?, runFull, if_neg hgoes, hdrive]
        cases result <;> rfl
    · exact absurd ⟨hrunning, rfl, Nat.succ_pos _⟩ hrest
  · rw [Operation.perform, runFull]
    split
    · rfl
    · rw [drive_of_rest fun hgoes => hover hgoes.1]

theorem Sound.effect_runCommands (h : e.Sound) (cs : List Command) :
    (Operation.runCommands cs).Effect e := by
  cases cs with
  | nil =>
    refine .rests rfl (.inl rfl) (Operation.rests_of_eq ?_)
    rw [Operation.perform, runCommands, drive_of_rest fun hgoes => absurd hgoes.2 (by decide)]
  | cons c cs =>
    refine Operation.effect_of_steps rfl (fun hrunning => ?_) (fun hover => ?_)
    · cases hdrive : Session.drive .interactive (fun src : CommandList => !src.exhausted)
        ((c :: cs).length + 1) e (CommandList.ofList (c :: cs)) with
      | mk result after =>
      rcases h.drives_drive hdrive with hdrives | ⟨hrest, -, -⟩
      · refine ⟨result, ?_, ?_⟩
        · rwa [Operation.perform, runCommands, hdrive]
        · rw [Operation.failure?, runCommands, hdrive]
      · exact absurd ⟨hrunning, rfl, Nat.succ_pos _⟩ hrest
    · rw [Operation.perform, runCommands, drive_of_rest fun hgoes => hover hgoes.1]

theorem Sound.effect_commitStagedStep (h : e.Sound) : Operation.commitStagedStep.Effect e := by
  refine Operation.effect_of_steps rfl (fun hrunning => ?_) (fun hover => ?_)
  · exact ⟨_, h.drives_commitStagedStep hrunning, rfl⟩
  · rw [Operation.perform, Session.commitStagedStep, if_pos hover]

theorem effect_setState (e : Session) (s : State) : (Operation.setState s).Effect e := by
  cases hcheck : s.checkWellFormed with
  | ok _ =>
    refine .installs (s := s) (by simp only [Operation.installed?, hcheck]) ?_
    rw [Operation.perform, setState_eq, hcheck]
    rfl
  | error why =>
    have hrefused : (Operation.setState s).perform e = e := by
      rw [Operation.perform, setState_eq, hcheck]
      rfl
    exact .rests (by simp only [Operation.installed?, hcheck]) (.inl rfl)
      (Operation.rests_of_eq hrefused)

theorem effect_stageCommand (e : Session) (c : Command) :
    (Operation.stageCommand c).Effect e := by
  refine .rests rfl (.inl rfl) ?_
  cases hstage : e.stageCommand c with
  | error why =>
    refine Operation.rests_of_eq ?_
    rw [Operation.perform, hstage]
  | ok e' =>
    obtain ⟨-, id, -, rfl⟩ := stageCommand_eq_ok hstage
    constructor <;> simp [Operation.perform, hstage]

/-- What operations do to sessions that make sense. -/
theorem Sound.effect (h : e.Sound) (op : Operation) : op.Effect e := by
  cases op with
  | setTrace bytes =>
    exact .rests rfl (.inl rfl)
      ⟨rfl, rfl, fun hne => absurd rfl (hne bytes), rfl, rfl, id, rfl, rfl⟩
  | setState s => exact effect_setState e s
  | setProblem name => exact .rests rfl (.inl rfl) ⟨rfl, rfl, fun _ => rfl, rfl, rfl, id, rfl, rfl⟩
  | setSolution name => exact .rests rfl (.inl rfl) ⟨rfl, rfl, fun _ => rfl, rfl, rfl, id, rfl, rfl⟩
  | observe =>
    exact .rests rfl (.inl rfl) ⟨rfl, rfl, fun _ => rfl, rfl, rfl, fun _ => rfl, rfl, rfl⟩
  | runOneStep => exact h.effect_runOneStep
  | runFull => exact h.effect_runFull
  | runCommands cs => exact h.effect_runCommands cs
  | checkCommand c => exact .rests rfl (.inl rfl) (Operation.rests_of_eq rfl)
  | stageCommand c => exact effect_stageCommand e c
  | commitStagedStep => exact h.effect_commitStagedStep

/-! ## Operations in a row -/

def performAll (e : Session) (ops : List Operation) : Session :=
  ops.foldl (fun e op => op.perform e) e

theorem performAll_concat (e : Session) (ops : List Operation) (op : Operation) :
    e.performAll (ops ++ [op]) = op.perform (e.performAll ops) := by
  rw [performAll, List.foldl_append]
  rfl

theorem Reachable.performAll (h : Reachable e) (ops : List Operation) :
    Reachable (e.performAll ops) := by
  induction ops generalizing e with
  | nil => exact h
  | cons op ops ih => exact ih (h.perform op)

end Session

end VoxelSwarm
