import VoxelSwarm.Proofs.Session.Reachable
import VoxelSwarm.Proofs.Step.Prefix
import VoxelSwarm.Proofs.Step.Runs

/-!
# Staging agrees with running a list

`stageAll_agrees` says that commands which a running session takes from a list can be staged one by
one, and that committing them once they are staged does what running the list does. Only what takes
the whole plan is left to the commit.

Staging goes through the bots in the order in which a list is read, so the plan that is staged grows
by the next pair of a bot and its command (`Awaits`), and a list for one step gives the same plan
(`runCommands_eq`).
-/

namespace VoxelSwarm

theorem readPlan_commandList {ids : List BotId} {cs : List Command}
    (hlength : cs.length = ids.length) (plan : Plan) (offset : Nat) :
    readPlan ids plan (⟨cs, offset⟩ : CommandList) =
      (.ok ((ids.zip cs).foldl (fun plan x => plan.assign x.1 x.2) plan),
        ⟨[], offset + ids.length⟩) := by
  induction ids generalizing cs plan offset with
  | nil =>
    obtain rfl := List.eq_nil_of_length_eq_zero hlength
    rfl
  | cons id ids ih =>
    obtain ⟨c, cs, rfl⟩ := List.exists_cons_of_length_eq_add_one hlength
    have hlength' : cs.length = ids.length := by simpa using hlength
    have hrest := ih hlength' (plan.assign id c) (offset + 1)
    simp only [readPlan, CommandSource.next, CommandList.next, List.zip_cons_cons, List.foldl_cons,
      List.length_cons]
    rw [hrest]
    congr 2
    omega

/-! ## Staging -/

namespace Session

variable {e e' : Session} {ps qs : List (BotId × Command)} {x : BotId × Command} {cs : List Command}

def withStaged (e : Session) (plan : Plan) : Session := { e with staged := plan }

def stageAll (e : Session) (cs : List Command) : Except SessionError Session :=
  cs.foldlM stageCommand e

/-- The bots of `ps` have staged commands and those of `qs` are to get theirs. -/
structure Awaits (e : Session) (ps qs : List (BotId × Command)) : Prop where
  running : e.status = .running
  staged : e.staged = Plan.ofPairs ps
  ids : (ps ++ qs).map (·.1) = e.state.activeIds

theorem Awaits.size (h : e.Awaits ps qs) (hseated : e.state.Seated) :
    e.staged.size = ps.length := by
  rw [h.staged, (State.distinct_of_ids hseated h.ids).left.size_ofPairs]

theorem Awaits.nextBot (h : e.Awaits ps (x :: qs)) (hseated : e.state.Seated) :
    e.nextBot = .ok x.1 := by
  rw [Session.nextBot, h.size hseated, ← h.ids]
  simp

theorem Awaits.checkCommand (h : e.Awaits ps (x :: qs)) (hseated : e.state.Seated) :
    e.checkCommand x.2 = (e.checkCommandOf x.1 x.2).mapError .step := by
  rw [Session.checkCommand, checkRunning, if_pos h.running, h.nextBot hseated]
  rfl

theorem Awaits.checkCommandOf_eq_ok_iff (h : e.Awaits ps (x :: qs)) (hseated : e.state.Seated) :
    e.checkCommandOf x.1 x.2 = .ok () ↔ e.state.Accepts e.rules ps x := by
  have htake : e.state.activeIds.take (e.staged.size + 1) = (ps ++ [x]).map (·.1) := by
    rw [h.size hseated, ← h.ids]
    simp [List.take_append]
  rw [checkCommandOf, htake, h.staged, ← Plan.ofPairs_concat]
  simp only [State.seq_eq_ok_iff, State.mapError_eq_ok_iff, Command.check_eq_ok_iff]
  exact ⟨fun ⟨h1, h2, h3⟩ => ⟨h1, h2, h3⟩, fun ha => ⟨ha.valid, ha.alone, ha.apart⟩⟩

theorem Awaits.stageCommand_eq_ok_iff (h : e.Awaits ps (x :: qs)) (hseated : e.state.Seated) :
    e.stageCommand x.2 = .ok e' ↔
      e.state.Accepts e.rules ps x ∧ e.withStaged (Plan.ofPairs (ps ++ [x])) = e' := by
  rw [← h.checkCommandOf_eq_ok_iff hseated, Plan.ofPairs_concat, ← h.staged, stageCommand,
    h.checkCommand hseated, h.nextBot hseated]
  cases e.checkCommandOf x.1 x.2 with
  | error cause => exact ⟨fun hok => (nomatch hok), fun hok => (nomatch hok.1)⟩
  | ok _ => exact ⟨fun hok => ⟨rfl, Except.ok.inj hok⟩, fun hok => congrArg Except.ok hok.2⟩

/-- All the commands are staged when each is accepted after those before it. -/
theorem Awaits.stageAll_eq_ok_iff (h : e.Awaits ps qs) (hseated : e.state.Seated) :
    e.stageAll (qs.map (·.2)) = .ok e' ↔
      e.state.AcceptsAll e.rules ps qs ∧ e.withStaged (Plan.ofPairs (ps ++ qs)) = e' := by
  induction qs generalizing e ps with
  | nil =>
    rw [List.append_nil, ← h.staged]
    exact ⟨fun hok => ⟨trivial, Except.ok.inj hok⟩, fun hok => congrArg Except.ok hok.2⟩
  | cons x qs ih =>
    have hfirst : ∀ next, e.stageCommand x.2 = .ok next ↔ _ := fun _ =>
      h.stageCommand_eq_ok_iff hseated
    have hids : ((ps ++ [x]) ++ qs).map (·.1) = e.state.activeIds := by
      rw [← List.append_cons]
      exact h.ids
    have hrest := @ih (e.withStaged (Plan.ofPairs (ps ++ [x]))) (ps ++ [x]) ⟨h.running, rfl, hids⟩
      hseated
    rw [List.map_cons, stageAll, List.foldlM_cons, List.append_cons]
    cases hstage : e.stageCommand x.2 with
    | error cause =>
      have hnot : ¬e.state.Accepts e.rules ps x := fun ha => by
        rw [(hfirst _).2 ⟨ha, rfl⟩] at hstage
        cases hstage
      exact ⟨fun hok => (nomatch hok), fun hok => absurd hok.1.1 hnot⟩
    | ok next =>
      obtain ⟨haccepts, rfl⟩ := (hfirst next).1 hstage
      exact hrest.trans ⟨fun hok => ⟨⟨haccepts, hok.1⟩, hok.2⟩, fun hok => ⟨hok.1.2, hok.2⟩⟩

/-! ## A list for one step -/

theorem conclude_eq_ok {result : Except StepError StepReport} {status : Status}
    (hok : (e.conclude result).1 = .ok status) : (e.conclude result).2.status = status := by
  cases result with
  | error cause => cases hok
  | ok report =>
    rw [conclude_ok] at hok
    exact Except.ok.inj hok

theorem conclude_eq_error {result : Except StepError StepReport} {cause : StepError}
    (herror : (e.conclude result).1 = .error cause) : result = .error cause := by
  cases result with
  | error why => rw [Except.error.inj herror]
  | ok report =>
    rw [conclude_ok] at herror
    cases herror

theorem commitStagedStep_eq_ok {status : Status} (hok : e.commitStagedStep.1 = .ok status) :
    e.commitStagedStep.2.status = status := by
  by_cases hover : e.status ≠ .running
  · rw [commitStagedStep, if_pos hover] at hok ⊢
    exact Except.ok.inj hok
  · rw [commitStagedStep, if_neg hover] at hok ⊢
    exact conclude_eq_ok hok

theorem commitStagedStep_eq_error {cause : StepError}
    (herror : e.commitStagedStep.1 = .error cause) :
    (e.state.resolveStep e.rules e.staged e.state.activeIds).1 = .error cause := by
  by_cases hover : e.status ≠ .running
  · rw [commitStagedStep, if_pos hover] at herror
    cases herror
  · rw [commitStagedStep, if_neg hover] at herror
    exact conclude_eq_error herror

theorem carriedOut_of_conclude {result : Except StepError StepReport}
    (hdone : CarriedOut (e.conclude result).1) : CarriedOut result := by
  cases result with
  | error _ => exact hdone
  | ok _ => trivial

theorem checkPlan_of_commitStagedStep (hrunning : e.status = .running)
    (hdone : CarriedOut e.commitStagedStep.1) :
    e.state.checkPlan e.rules e.staged e.state.activeIds = .ok () ∧
      (e.state.executeAll e.staged e.state.activeIds).1 = e.commitStagedStep.2.state := by
  rw [commitStagedStep, if_neg (not_not.2 hrunning)] at hdone ⊢
  rw [state_conclude]
  exact State.checkPlan_of_resolveStep rfl (carriedOut_of_conclude hdone)

theorem advance_commandList (hrunning : e.status = .running)
    (hlength : cs.length = e.state.activeIds.length) :
    e.advance .interactive (CommandList.ofList cs) =
      ((e.withStaged (Plan.ofPairs (e.state.activeIds.zip cs))).commitStagedStep.1,
        (e.withStaged (Plan.ofPairs (e.state.activeIds.zip cs))).commitStagedStep.2,
        ⟨[], 0 + e.state.activeIds.length⟩) := by
  have hnot : ¬e.status ≠ .running := not_not.2 hrunning
  rw [advance, if_neg hnot, commitStagedStep, withStaged, if_neg hnot, State.runStep,
    CommandList.ofList, readPlan_commandList hlength, ← Plan.ofPairs]
  rfl

theorem drive_exhausted (mode : RunMode) (fuel : Nat) (e : Session) (offset : Nat) :
    drive mode (fun src : CommandList => !src.exhausted) fuel e ⟨[], offset⟩ =
      (.ok e.status, e, ⟨[], offset⟩) := by
  cases fuel with
  | zero => rfl
  | succ fuel =>
    rw [drive, if_neg]
    exact fun hagain => nomatch hagain.2

/-- Running a list that is used up by one step. -/
theorem runCommands_eq (hrunning : e.status = .running) (hne : e.state.activeIds ≠ [])
    (hlength : cs.length = e.state.activeIds.length) :
    e.runCommands cs =
      (e.withStaged (Plan.ofPairs (e.state.activeIds.zip cs))).commitStagedStep := by
  have hmore : (CommandList.ofList cs).exhausted = false := by
    cases cs with
    | nil => exact absurd (List.eq_nil_of_length_eq_zero hlength.symm) hne
    | cons c cs => rfl
  have hstart : e.status = .running ∧ (!(CommandList.ofList cs).exhausted) = true :=
    ⟨hrunning, by rw [hmore]; rfl⟩
  rw [runCommands, drive, if_pos hstart, advance_commandList hrunning hlength]
  cases hcommit : (e.withStaged (Plan.ofPairs (e.state.activeIds.zip cs))).commitStagedStep with
  | mk result after =>
    cases result with
    | error cause => rfl
    | ok status =>
      have hstatus := commitStagedStep_eq_ok (congrArg Prod.fst hcommit)
      rw [hcommit] at hstatus
      obtain rfl : after.status = status := hstatus
      simp only [drive_exhausted]

/-! ## Agreement -/

/-- What a session makes of commands that are staged one by one and then committed is what it makes
of their list. They can all be staged when the list goes well, and once they are staged the commit
fails only for causes that the whole plan shows. -/
theorem stageAll_agrees (h : e.Reachable) (hrunning : e.status = .running)
    (hstaged : e.staged.isEmpty = true) (hlength : cs.length = e.state.activeCount) :
    (∀ status, (e.runCommands cs).1 = .ok status → ∃ staged, e.stageAll cs = .ok staged) ∧
      ∀ staged, e.stageAll cs = .ok staged →
        staged.commitStagedStep = e.runCommands cs ∧
          ∀ cause, staged.commitStagedStep.1 = .error cause → cause.Deferred := by
  have hseated := h.sound.orderly.seated
  have hne := h.sound.activeIds_ne_nil hrunning
  have hlength' : cs.length = e.state.activeIds.length := by
    rw [hlength, State.activeCount, State.activeIds, List.length_map]
  have hrun := runCommands_eq hrunning hne hlength'
  obtain ⟨ps, hps, hids, rfl⟩ : ∃ ps, e.state.activeIds.zip cs = ps ∧
      ps.map (·.1) = e.state.activeIds ∧ ps.map (·.2) = cs :=
    ⟨_, rfl, List.map_fst_zip hlength'.ge, List.map_snd_zip hlength'.le⟩
  have hawaits : e.Awaits [] ps := ⟨hrunning, Plan.eq_empty_of_isEmpty hstaged, hids⟩
  have hps' : ps ≠ [] := by
    rintro rfl
    exact hne hids.symm
  rw [hps] at hrun
  constructor
  · intro status hok
    rw [hrun] at hok
    have hcheck := checkPlan_of_commitStagedStep (e := e.withStaged (Plan.ofPairs ps)) hrunning
      (by rw [hok]; trivial)
    exact ⟨_, (hawaits.stageAll_eq_ok_iff hseated).2
      ⟨State.acceptsAll_of_checkPlan hseated hids hcheck.1, rfl⟩⟩
  · intro staged hstage
    obtain ⟨haccepts, rfl⟩ := (hawaits.stageAll_eq_ok_iff hseated).1 hstage
    refine ⟨hrun.symm, fun cause herror => ?_⟩
    exact State.deferred_of_resolveStep hseated hids hps' haccepts
      (commitStagedStep_eq_error herror)

/-! ## An example -/

theorem reachable_crew : Reachable (ofState State.crew {}) := by
  have hcreate : Reachable (ofState (State.start (Matrix.empty 3) (Matrix.empty 3)) {}) :=
    .create (show Session.create (some (Matrix.empty 3)) none {} = _ from rfl)
  have hset := hcreate.perform (.setState State.crew)
  simp only [Operation.perform, setState, State.crew_checkWellFormed] at hset
  exact hset

theorem runCommands_crew :
    ((ofState State.crew {}).runCommands State.crewCommands).1 = .ok .running := by
  have hplan : Plan.ofPairs (State.crew.activeIds.zip State.crewCommands) = State.crewPlan := by
    decide +kernel
  have hresolves : State.crew.resolveStep {} State.crewPlan State.crew.activeIds = _ :=
    State.crew_completes.resolves
  rw [runCommands_eq rfl (by decide +kernel) (by decide +kernel), commitStagedStep, withStaged]
  simp only [ofState, hplan, hresolves]
  rfl

theorem stageAll_crew : ∃ staged, (ofState State.crew {}).stageAll State.crewCommands = .ok staged ∧
    staged.commitStagedStep = (ofState State.crew {}).runCommands State.crewCommands := by
  have hagree := @stageAll_agrees _ State.crewCommands reachable_crew rfl (by decide +kernel)
    (by decide +kernel)
  obtain ⟨staged, hstaged⟩ := hagree.1 _ runCommands_crew
  exact ⟨staged, hstaged, (hagree.2 staged hstaged).1⟩

end Session

end VoxelSwarm
