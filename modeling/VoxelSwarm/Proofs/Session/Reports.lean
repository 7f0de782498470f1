import VoxelSwarm.Proofs.Session.Lifecycle

/-!
# Reports of runs

An observed session tells of the end of each run once, when a step halts it or fails, and never
else (`one_report_for_each_run`). The report names the mode in which the first step of the run has
been attempted, whatever has driven the session after that (`Observes`). A state that has halted
when it is installed ends a run too, but nobody is told of that (`unreported_install`).
-/

namespace VoxelSwarm

namespace Session

variable {e e' : Session} {mode : RunMode} {result : Except StepError Status}
  {first : Option Operation} {op : Operation}

/-! ## The first step of a run -/

namespace Operation

theorem mode?_eq_auto_iff : op.mode? = some .auto ↔ op = .runFull := by
  cases op with
  | runCommands cs => cases cs <;> simp [mode?]
  | _ => simp [mode?]

/-- The operation that has attempted the first step since a state was installed, if `first` is the
one that had done so before. -/
def opens (op : Operation) (e : Session) (first : Option Operation) : Option Operation :=
  if op.installed?.isSome then none
  else if e.status = .running ∧ op.mode?.isSome then first <|> some op
  else first

theorem opens_of_installed {s : State} (h : op.installed? = some s) : op.opens e first = none := by
  simp [opens, h]

theorem opens_of_mode? (hmode : op.mode? = some mode) (hrunning : e.status = .running) :
    op.opens e first = (first <|> some op) := by
  simp [opens, installed?_of_mode? hmode, hrunning, hmode]

theorem opens_of_idle (hinstalled : op.installed? = none)
    (hidle : op.mode? = none ∨ e.status ≠ .running) : op.opens e first = first := by
  rcases hidle with hmode | hover
  · simp [opens, hinstalled, hmode]
  · simp [opens, hinstalled, hover]

end Operation

/-- The operation that has attempted the first step since the session was created or a state was
installed, after operations in a row. -/
def firstAttempt (e : Session) (first : Option Operation) : List Operation → Option Operation
  | [] => first
  | op :: ops => (op.perform e).firstAttempt (op.opens e first) ops

theorem firstAttempt_concat (e : Session) (first : Option Operation) (ops : List Operation)
    (op : Operation) :
    e.firstAttempt first (ops ++ [op]) =
      op.opens (e.performAll ops) (e.firstAttempt first ops) := by
  induction ops generalizing e first with
  | nil => rfl
  | cons op' ops ih => exact ih (op'.perform e) (op'.opens e first)

/-! ## What is told -/

theorem Drives.observed (h : Drives mode e result e') : e'.observed = e.observed := by
  cases h <;> rfl

theorem Drives.goes_on (h : Drives mode e result e') (hrunning : e'.status = .running) :
    e'.mode = some (e.mode.getD mode) ∧ e'.reports = e.reports := by
  cases h with
  | goes => exact ⟨rfl, rfl⟩
  | halts => simp at hrunning
  | fails => simp at hrunning

theorem Drives.exists_told (h : Drives mode e result e') (hobserved : e.observed = true)
    (hover : e'.status ≠ .running) :
    ∃ outcome, e'.reports = e.reports ++ [⟨e.labels, e.mode.getD mode, e'.stepCount, outcome⟩] ∧
      (e'.status = .halted ∧ outcome = .success e'.state.energy ∨
        ∃ cause, result = .error cause ∧ e'.status = .aborted ∧
          outcome = .failure cause.kind cause.message) := by
  cases h with
  | goes hrunning => exact absurd hrunning hover
  | @halts t n r =>
    refine ⟨.success t.energy, ?_, .inl ⟨rfl, rfl⟩⟩
    simp [publish, stepped, hobserved]
  | @fails t n r cause =>
    refine ⟨.failure cause.kind cause.message, ?_, .inr ⟨cause, rfl, rfl, rfl⟩⟩
    simp [publish, stepped, hobserved]

/-- Somebody receives the reports of the session, and its run has the mode of its first step. -/
structure Observes (e : Session) (first : Option Operation) : Prop where
  observed : e.observed = true
  mode : e.status = .running → e.mode = first.bind Operation.mode?
  steps : ∀ op ∈ first, op.mode?.isSome = true

namespace Observes

theorem bind_opens (h : e.Observes first) (hrunning : e.status = .running)
    (hmode : op.mode? = some mode) :
    (op.opens e first).bind Operation.mode? = some (e.mode.getD mode) := by
  rw [Operation.opens_of_mode? hmode hrunning, h.mode hrunning]
  cases first with
  | none => exact hmode
  | some op' =>
    obtain ⟨mode', hmode'⟩ := Option.isSome_iff_exists.1 (h.steps op' rfl)
    simp [hmode']

theorem auto_iff (h : e.Observes first) (hrunning : e.status = .running)
    (hmode : op.mode? = some mode) :
    e.mode.getD mode = .auto ↔ op.opens e first = some .runFull := by
  rw [← Option.some_inj, ← h.bind_opens hrunning hmode, Option.bind_eq_some_iff]
  simp only [Operation.mode?_eq_auto_iff, exists_eq_right]

theorem perform (h : e.Observes first) (hsound : e.Sound) (op : Operation) :
    (op.perform e).Observes (op.opens e first) := by
  cases hsound.effect op with
  | installs hinstalled hafter =>
    rw [hafter, Operation.opens_of_installed hinstalled]
    exact ⟨h.observed, fun _ => rfl, fun _ hnone => nomatch hnone⟩
  | @drives mode _ hmode hdrives _ =>
    refine ⟨hdrives.observed.trans h.observed, fun hrunning => ?_, ?_⟩
    · rw [h.bind_opens hdrives.running hmode, (hdrives.goes_on hrunning).1]
    · rw [Operation.opens_of_mode? hmode hdrives.running]
      intro op' hop'
      cases first with
      | none =>
        obtain rfl : op = op' := Option.some.inj hop'
        simp [hmode]
      | some op₀ => exact h.steps op' hop'
  | rests hinstalled hidle hrests =>
    rw [Operation.opens_of_idle hinstalled hidle]
    refine ⟨hrests.observed h.observed, fun hrunning => ?_, h.steps⟩
    exact hrests.mode.trans (h.mode (hrests.status.symm.trans hrunning))

theorem performAll (h : e.Observes first) (hsound : e.Sound) (ops : List Operation) :
    (e.performAll ops).Observes (e.firstAttempt first ops) := by
  induction ops generalizing e first with
  | nil => exact h
  | cons op ops ih => exact ih (h.perform hsound op) (hsound.perform op)

end Observes

namespace Operation

/-- The operation ends the run of a session, other than by installing a state. -/
def Ends (op : Operation) (e : Session) : Prop :=
  e.status = .running ∧ (op.perform e).status ≠ .running ∧ op.installed? = none

/-- What has to be told about a run that an operation has ended, and another one has begun. -/
structure Tells (op : Operation) (e : Session) (first : Option Operation) (report : RunReport) :
    Prop where
  labels : report.labels = e.labels
  mode : report.mode = .auto ↔ first = some .runFull
  steps : report.steps = (op.perform e).stepCount
  outcome : (op.perform e).status = .halted ∧
      report.outcome = .success (op.perform e).state.energy ∨
    (op.perform e).status = .aborted ∧ ∃ why, op.failure? e = some why ∧
      report.outcome = .failure why.kind why.message

end Operation

theorem Observes.exists_report (h : e.Observes first) (hsound : e.Sound) (hends : op.Ends e) :
    ∃ report, (op.perform e).reports = e.reports ++ [report] ∧
      op.Tells e (op.opens e first) report := by
  obtain ⟨hrunning, hover, hinstalled⟩ := hends
  cases hsound.effect op with
  | installs hinstalls _ => exact nomatch hinstalled.symm.trans hinstalls
  | rests _ _ hrests => exact absurd (hrests.status.trans hrunning) hover
  | @drives mode result hmode hdrives hfailure =>
    obtain ⟨outcome, hreports, houtcome⟩ := hdrives.exists_told h.observed hover
    refine ⟨_, hreports, rfl, h.auto_iff hrunning hmode, rfl, ?_⟩
    rcases houtcome with hhalted | ⟨cause, rfl, haborted, houtcome⟩
    · exact .inl hhalted
    · exact .inr ⟨haborted, .step cause, hfailure, houtcome⟩

theorem reports_of_not_ends (hsound : e.Sound) (hends : ¬op.Ends e) :
    (op.perform e).reports = e.reports := by
  cases hsound.effect op with
  | installs _ hafter =>
    rw [hafter]
    rfl
  | rests _ _ hrests => exact hrests.reports
  | drives hmode hdrives _ =>
    refine (hdrives.goes_on ?_).2
    by_contra hover
    exact hends ⟨hdrives.running, hover, Operation.installed?_of_mode? hmode⟩

/-- Reports of a session that is observed from the start, after any operations: if the next one ends
a run, other than by installing a state, it adds one report, and else it adds none. The report has
the number of steps at that point, the energy spent if the run has halted and the kind and the
message of the error if it has failed, and it is one of a run in one call if and only if the first
step attempted since the start or since a state was installed was driven so. -/
theorem one_report_for_each_run {source target : Option Matrix} {rules : Rules}
    (hcreate : Session.create source target rules = .ok e) (ops : List Operation)
    (op : Operation) :
    e.observe.reports = [] ∧
    (op.Ends (e.observe.performAll ops) → ∃ report,
      (op.perform (e.observe.performAll ops)).reports =
        (e.observe.performAll ops).reports ++ [report] ∧
      op.Tells (e.observe.performAll ops) (e.observe.firstAttempt none (ops ++ [op])) report) ∧
    (¬op.Ends (e.observe.performAll ops) →
      (op.perform (e.observe.performAll ops)).reports = (e.observe.performAll ops).reports) := by
  obtain ⟨s, -, rfl⟩ := exists_initial_of_create hcreate
  have hbegins : Observes (ofState s rules).observe none :=
    ⟨rfl, fun _ => rfl, fun _ h => nomatch h⟩
  have hreachable := (Reachable.create hcreate).perform .observe
  have hsound := (hreachable.performAll ops).sound
  refine ⟨rfl, fun hends => ?_, reports_of_not_ends hsound⟩
  rw [firstAttempt_concat]
  exact (hbegins.performAll hreachable.sound ops).exists_report hsound hends

theorem runOneStep_halt :
    (clearing.observe.setTrace [0xff]).runOneStep.2.status = .halted ∧
      (clearing.observe.setTrace [0xff]).runOneStep.2.stepCount = 1 ∧
      (clearing.observe.setTrace [0xff]).runOneStep.2.state.energy = 101 := by
  have hids : (clearing.observe.setTrace [0xff]).state.activeIds = [BotId.first] := by
    decide +kernel
  obtain ⟨e', hone, htakes, hstate, -⟩ :=
    exists_takes_of_runStep (e := clearing.observe.setTrace [0xff]) rfl
      (State.runStep_alone (c := .halt) hids (by rfl) (by decide +kernel) rfl (by decide +kernel))
  rw [hone, hstate]
  exact ⟨htakes.status.trans (by decide +kernel), htakes.stepCount, by decide +kernel⟩

/-- Without a trace a run in one call fails and tells so. With one that halts at once, a single step
ends the run and tells of the energy that it has taken. -/
theorem one_report_for_each_run_clearing :
    Session.create (some (Matrix.empty 3)) none {} = .ok clearing ∧
    (∃ report, (Operation.runFull.perform clearing.observe).reports = [report] ∧
      report.mode = .auto ∧ report.steps = 0) ∧
    ∃ report, (Operation.runOneStep.perform (clearing.observe.setTrace [0xff])).reports = [report] ∧
      report.mode = .interactive ∧ report.steps = 1 ∧ report.outcome = .success 101 := by
  have haborted : (Operation.runFull.perform clearing.observe).status = .aborted := by
    decide +kernel
  have hfails : Operation.runFull.Ends (clearing.observe.performAll []) :=
    ⟨rfl, by rw [performAll, List.foldl_nil, haborted]; decide, rfl⟩
  obtain ⟨report, hreports, htells⟩ :=
    (one_report_for_each_run create_clearing [] .runFull).2.1 hfails
  have hauto : report.mode = .auto := htells.mode.2 rfl
  have hsteps : report.steps = 0 := htells.steps.trans (by decide +kernel)
  obtain ⟨hhalted, hone, henergy⟩ := runOneStep_halt
  have hover : (Operation.runOneStep.perform (clearing.observe.performAll [.setTrace [0xff]])).status =
      .halted := hhalted
  have hhalts : Operation.runOneStep.Ends (clearing.observe.performAll [.setTrace [0xff]]) :=
    ⟨rfl, by rw [hover]; decide, rfl⟩
  obtain ⟨report', hreports', htells'⟩ :=
    (one_report_for_each_run create_clearing [.setTrace [0xff]] .runOneStep).2.1 hhalts
  have hinteractive : report'.mode = .interactive := by
    cases hmode : report'.mode with
    | interactive => rfl
    | auto => exact nomatch Option.some.inj (htells'.mode.1 hmode)
  refine ⟨create_clearing, ⟨report, hreports, hauto, hsteps⟩, report', hreports', hinteractive,
    htells'.steps.trans hone, ?_⟩
  rcases htells'.outcome with ⟨-, houtcome⟩ | ⟨haborted', -⟩
  · exact houtcome.trans (congrArg Outcome.success henergy)
  · exact nomatch hover.symm.trans haborted'

/-- A state that has halted is installed in a session that runs: the session has halted then, and
nobody is told. -/
theorem unreported_install :
    Session.create (some (Matrix.empty 3)) none {} = .ok clearing ∧
      clearing.observe.status = .running ∧
      ((Operation.setState State.finished).perform clearing.observe).status = .halted ∧
      ((Operation.setState State.finished).perform clearing.observe).reports = [] := by
  have hinstall : clearing.observe.setState State.finished =
      .ok (clearing.observe.restored State.finished) :=
    setState_eq_ok_iff.2 ⟨State.finished_checkWellFormed, rfl⟩
  rw [Operation.perform, hinstall]
  exact ⟨create_clearing, rfl, rfl, rfl⟩

end Session

end VoxelSwarm
