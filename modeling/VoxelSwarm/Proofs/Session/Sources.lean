import VoxelSwarm.Proofs.Session.Staging
import VoxelSwarm.Proofs.Session.Stepwise
import VoxelSwarm.Proofs.Step.Sources

/-!
# Running a list and running its trace

A session that runs a list of commands and one that runs the trace of that list go the same way step
by step (`drive_concurs`). They differ in when they stop: the list is left when it is used up at the
end of a step, while the trace is read on, so the run of a trace that does not halt fails where the
trace ends. So one of them halts exactly if the other does (`HaltTogether`).
-/

namespace VoxelSwarm

theorem CommandList.spends : CommandSource.Spends CommandList := by
  intro l l' c hnext
  show l'.rest.length < l.rest.length
  cases hrest : l.rest with
  | nil =>
    simp only [CommandSource.next, CommandList.next, hrest] at hnext
    cases hnext
  | cons c' rest =>
    simp only [CommandSource.next, CommandList.next, hrest] at hnext
    obtain ⟨-, rfl⟩ := Prod.mk.inj hnext
    exact Nat.lt_succ_self _

namespace Session

variable {n N : Nat} {l : CommandList} {r : TraceReader} {e e' : Session} {cs : List Command}

/-- What becomes of a session that runs a list and of one that runs the trace of the list. -/
inductive Concurs (n N : Nat) : Except StepError Status × Session × CommandList →
    Except StepError Status × Session × TraceReader → Prop
  | halts {e e' : Session} {l : CommandList} {r : TraceReader} (state : e.state = e'.state)
    (stepCount : e.stepCount = e'.stepCount) : Concurs n N (.ok .halted, e, l) (.ok .halted, e', r)
  /-- The list is used up, and the trace ends too soon. -/
  | wants {e e' : Session} {l : CommandList} {r : TraceReader} (state : e.state = e'.state)
    (stepCount : e.stepCount = e'.stepCount) :
    Concurs n N (.ok .running, e, l) (.error (.parse (.endOfTrace N)), e', r)
  | fails {cause cause' : StepError} {e e' : Session} {l : CommandList} {r : TraceReader}
    (same : SameStep n N (.error cause) (.error cause')) (state : e.state = e'.state)
    (stepCount : e.stepCount = e'.stepCount) :
    Concurs n N (.error cause, e, l) (.error cause', e', r)

/-! ## One step -/

theorem Ahead.exists_fails {cause cause' : StepError} {t : State} {l' : CommandList}
    {r' : TraceReader} (h : Ahead 0 e e') (hrunning : e.status = .running)
    (hlist : e.state.runStep e.rules l = (.error cause, t, l'))
    (htrace : e.state.runStep e.rules r = (.error cause', t, r')) (mode mode' : RunMode) :
    ∃ f f', e.advance mode l = (.error cause, f, l') ∧
      e'.advance mode' r = (.error cause', f', r') ∧ f.state = f'.state ∧
      f.stepCount = f'.stepCount := by
  have hrunning' : e'.status = .running := h.status ▸ hrunning
  rw [h.state, h.rules] at htrace
  obtain ⟨f, hadvance, hfails, hstate⟩ := Session.exists_fails mode hrunning hlist
  obtain ⟨f', hadvance', hfails', hstate'⟩ := Session.exists_fails mode' hrunning' htrace
  refine ⟨f, f', hadvance, hadvance', hstate.trans hstate'.symm, ?_⟩
  rw [hfails.stepCount, hfails'.stepCount, h.stepCount, Nat.zero_add]

theorem Ahead.exists_takes {report : StepReport} {t : State} {l' : CommandList} {r' : TraceReader}
    (h : Ahead 0 e e') (hrunning : e.status = .running)
    (hlist : e.state.runStep e.rules l = (.ok report, t, l'))
    (htrace : e.state.runStep e.rules r = (.ok report, t, r')) (mode mode' : RunMode) :
    ∃ f f', e.advance mode l = (.ok f.status, f, l') ∧
      e'.advance mode' r = (.ok f'.status, f', r') ∧ e.Takes l report f l' ∧
      e'.Takes r report f' r' ∧ Ahead 0 f f' := by
  have hrunning' : e'.status = .running := h.status ▸ hrunning
  rw [h.state, h.rules] at htrace
  obtain ⟨f, hadvance, htakes, hstate⟩ := Session.exists_takes mode hrunning hlist
  obtain ⟨f', hadvance', htakes', hstate'⟩ := Session.exists_takes mode' hrunning' htrace
  refine ⟨f, f', hadvance, hadvance', htakes, htakes', hstate.trans hstate'.symm, ?_, ?_, ?_⟩
  · rw [htakes.rules, htakes'.rules, h.rules]
  · rw [htakes.status, htakes'.status]
  · rw [htakes.stepCount, htakes'.stepCount, h.stepCount, Nat.add_assoc]

theorem advance_of_exhausted (hsound : e.Sound) (hrunning : e.status = .running)
    (hc : Carries n N l r) (hover : l.exhausted = true) (mode : RunMode) :
    ∃ e', e.advance mode r = (.error (.parse (.endOfTrace N)), e', r) ∧ e.state = e'.state ∧
      e.stepCount = e'.stepCount := by
  obtain ⟨id, ids, hids⟩ := List.exists_cons_of_ne_nil (hsound.activeIds_ne_nil hrunning)
  have hunread : r.unread = [] := TraceReader.exhausted_iff.1 (hc.exhausted_eq ▸ hover)
  have hnext : r.next = (.error (.endOfTrace N), r) := by
    rw [TraceReader.next_eq, hunread, ← hc.bytes, hunread]
    rfl
  have hstep : e.state.runStep e.rules r = (.error (.parse (.endOfTrace N)), e.state, r) := by
    rw [State.runStep, hids, readPlan]
    simp only [CommandSource.next, hnext]
  obtain ⟨e', hadvance, hfails, hstate⟩ := Session.exists_fails mode hrunning hstep
  exact ⟨e', hadvance, hstate.symm, hfails.stepCount.symm⟩

/-! ## Runs -/

theorem drive_concurs (h : Ahead 0 e e') (hsound : e.Sound) (hsound' : e'.Sound)
    (hgoes : e.status ≠ .aborted) (hc : Carries n N l r) {fuel fuel' : Nat}
    (hfuel : l.rest.length < fuel) (hfuel' : r.remaining < fuel') :
    Concurs n N (drive .interactive (fun l => !l.exhausted) fuel e l)
      (drive .auto (fun _ => true) fuel' e' r) := by
  induction fuel generalizing fuel' e e' l r with
  | zero => exact absurd hfuel (Nat.not_lt_zero _)
  | succ fuel ih =>
    obtain ⟨fuel', rfl⟩ := Nat.exists_eq_add_one_of_ne_zero (Nat.ne_zero_of_lt hfuel')
    have hcount : e.stepCount = e'.stepCount := h.stepCount.trans (Nat.zero_add _)
    unfold drive
    by_cases hrunning : e.status = .running
    · have hrunning' : e'.status = .running := h.status ▸ hrunning
      rw [if_pos (show e'.status = .running ∧ true = true from ⟨hrunning', rfl⟩)]
      by_cases hover : l.exhausted = true
      · obtain ⟨f', hadvance, hstate, hstay⟩ :=
          advance_of_exhausted hsound' hrunning' hc hover .auto
        rw [if_neg (by simp [hover]), hadvance, hrunning]
        exact .wants (h.state.trans hstate) (hcount.trans hstay)
      · rw [if_pos ⟨hrunning, by simp [hover]⟩]
        obtain ⟨hresult, hstate, hafter⟩ := e.state.runStep_carries e.rules hc
        cases hlist : e.state.runStep e.rules l with
        | mk result after =>
        obtain ⟨t, l'⟩ := after
        cases htrace : e.state.runStep e.rules r with
        | mk result' after' =>
        obtain ⟨t', r'⟩ := after'
        rw [hlist, htrace] at hresult hstate hafter
        obtain rfl : t = t' := hstate
        cases result with
        | error cause =>
          obtain ⟨cause', rfl⟩ : ∃ cause', result' = .error cause' := by
            cases hresult <;> exact ⟨_, rfl⟩
          obtain ⟨f, f', hadvance, hadvance', hsame, hstay⟩ :=
            h.exists_fails hrunning hlist htrace .interactive .auto
          rw [hadvance, hadvance']
          exact .fails hresult hsame hstay
        | ok report =>
          obtain rfl : result' = .ok report := by
            cases hresult
            rfl
          obtain ⟨f, f', hadvance, hadvance', htakes, htakes', hahead⟩ :=
            h.exists_takes hrunning hlist htrace .interactive .auto
          have hgoes' : f.status ≠ .aborted := by
            rw [htakes.status]
            split
            all_goals
              intro haborted
              cases haborted
          have hshorter : l'.rest.length < l.rest.length := htakes.spends CommandList.spends hsound
          have hshorter' := htakes'.remaining_lt hsound'
          have hleft : l'.rest.length < fuel := by omega
          have hleft' : r'.remaining < fuel' := by omega
          rw [hadvance, hadvance']
          exact ih hahead (htakes.sound hsound) (htakes'.sound hsound') hgoes' hafter hleft hleft'
    · have hhalted : e.status = .halted := by
        cases hstatus : e.status with
        | running => exact absurd hstatus hrunning
        | halted => rfl
        | aborted => exact absurd hstatus hgoes
      have hhalted' : e'.status = .halted := h.status ▸ hhalted
      rw [if_neg (by simp [hhalted]), if_neg (by simp [hhalted']), hhalted, hhalted']
      exact .halts h.state hcount

/-- The run of a list halts if and only if the run of a trace to its end succeeds, and then both
have come to the same state after the same number of steps. -/
structure HaltTogether (x : Except StepError Status × Session)
    (y : Except SessionError Int × Session) : Prop where
  halts_iff : x.1 = .ok .halted ↔ ∃ energy, y.1 = .ok energy
  energy : x.1 = .ok .halted → y.1 = .ok x.2.state.energy
  state : x.1 = .ok .halted → y.2.state = x.2.state
  stepCount : x.1 = .ok .halted → y.2.stepCount = x.2.stepCount

theorem Concurs.haltTogether {x : Except StepError Status × Session × CommandList}
    {y : Except StepError Status × Session × TraceReader} (h : Concurs n N x y) :
    HaltTogether (x.1, x.2.1) (settle y) := by
  cases h with
  | halts hstate hcount =>
    exact ⟨⟨fun _ => ⟨_, rfl⟩, fun _ => rfl⟩,
      fun _ => congrArg (fun s : State => Except.ok s.energy) hstate.symm, fun _ => hstate.symm,
      fun _ => hcount.symm⟩
  | wants => exact ⟨⟨nofun, nofun⟩, nofun, nofun, nofun⟩
  | fails => exact ⟨⟨nofun, nofun⟩, nofun, nofun, nofun⟩

theorem runCommands_haltTogether (hsound : e.Sound) (hvalid : ∀ c ∈ cs, c.check = .ok ()) :
    HaltTogether (e.runCommands cs) (e.setTrace (cs.flatMap Command.bytes)).runFull := by
  by_cases haborted : e.status = .aborted
  · have hnot : (e.runCommands cs).1 ≠ .ok .halted := by
      rw [runCommands, drive, if_neg (by simp [haborted]), haborted]
      intro hhalts
      cases hhalts
    have htrace : (e.setTrace (cs.flatMap Command.bytes)).runFull.1 =
        .error (.notRunning .aborted) := by
      rw [runFull, if_pos (show (e.setTrace _).status = .aborted from haborted)]
    refine ⟨?_, ?_, ?_, ?_⟩
    · refine iff_of_false hnot ?_
      rintro ⟨energy, henergy⟩
      rw [htrace] at henergy
      cases henergy
    all_goals
      intro hhalts
      exact absurd hhalts hnot
  · have hstart : Ahead 0 e (e.setTrace (cs.flatMap Command.bytes)) :=
      ⟨rfl, rfl, rfl, (Nat.zero_add _).symm⟩
    have hconcurs := drive_concurs hstart hsound (hsound.perform (.setTrace _)) haborted
      (Carries.start hvalid) (Nat.lt_succ_self cs.length) (Nat.lt_succ_self _)
    rw [runFull_eq (show (e.setTrace _).status ≠ .aborted from haborted)]
    exact hconcurs.haltTogether

/-! ## Agreement -/

/-- Commands whose arguments belong to their classes are written as a trace, and the list of them
and this trace drive every state alike, step by step. A session to which anything has been done
before halts with the one exactly if it does with the other. -/
theorem sources_agree (hvalid : ∀ c ∈ cs, c.check = .ok ()) :
    ∃ bytes, Trace.encode cs = .ok bytes ∧
      (∀ (s : State) (rules : Rules) (k : Nat),
        List.Forall₂ (State.InStep cs.length bytes.length)
          (s.runSteps rules k (CommandList.ofList cs))
          (s.runSteps rules k (TraceReader.ofBytes bytes))) ∧
      ∀ e : Session, e.Reachable →
        HaltTogether (e.runCommands cs) (e.setTrace bytes).runFull := by
  refine ⟨_, Trace.encode_eq_ok hvalid, ?_, ?_⟩
  · intro s rules k
    exact s.runSteps_inStep rules (Carries.start hvalid) k
  · intro e hreachable
    exact runCommands_haltTogether hreachable.sound hvalid

def clearing : Session :=
  ofState ⟨Matrix.empty 3, Matrix.empty 3, State.foundingSlots, 0, .low, false⟩ {}

theorem create_clearing : Session.create (some (Matrix.empty 3)) none {} = .ok clearing := by
  have hstart : State.start (Matrix.empty 3) (Matrix.empty 3) =
      ⟨Matrix.empty 3, Matrix.empty 3, State.foundingSlots, 0, .low, false⟩ := State.start_eq ..
  have hcreate : Session.create (some (Matrix.empty 3)) none {} =
      .ok (ofState (State.start (Matrix.empty 3) (Matrix.empty 3)) {}) := rfl
  rwa [hstart] at hcreate

theorem reachable_clearing : Reachable clearing := .create create_clearing

theorem runCommands_post :
    (clearing.runCommands [.fill ⟨1, 0, 0⟩, .halt]).1 = .ok .halted := by
  -- the first step fills a voxel
  have hnext : CommandSource.next (CommandList.ofList [.fill ⟨1, 0, 0⟩, .halt]) =
      (.ok (.fill ⟨1, 0, 0⟩), (⟨[.halt], 1⟩ : CommandList)) := rfl
  have hids : clearing.state.activeIds = [⟨1⟩] := by decide +kernel
  obtain ⟨e₁, hadvance₁, htakes₁, hstate₁⟩ := exists_takes (e := clearing) .interactive rfl
    (State.runStep_alone hids hnext (by decide +kernel) rfl (by decide +kernel))
  have hrunning₁ : e₁.status = .running := htakes₁.status.trans (by decide +kernel)
  -- the second one halts
  have hnext₁ : CommandSource.next (⟨[.halt], 1⟩ : CommandList) =
      (.ok .halt, (⟨[], 2⟩ : CommandList)) := rfl
  have hids₁ : e₁.state.activeIds = [⟨1⟩] := by
    rw [hstate₁]
    decide +kernel
  obtain ⟨e₂, hadvance₂, htakes₂, hstate₂⟩ := exists_takes .interactive hrunning₁
    (State.runStep_alone hids₁ hnext₁ (by rw [hstate₁, htakes₁.rules]; decide +kernel) rfl
      (by rw [hstate₁, htakes₁.rules]; decide +kernel))
  have hhalted₂ : e₂.status = .halted := htakes₂.status.trans (by rw [hstate₁]; decide +kernel)
  rw [runCommands, drive, if_pos ⟨rfl, rfl⟩, hadvance₁]
  show (drive .interactive _ 2 e₁ (⟨[.halt], 1⟩ : CommandList)).1 = _
  rw [drive, if_pos ⟨hrunning₁, rfl⟩, hadvance₂]
  show (drive .interactive _ 1 e₂ (⟨[], 2⟩ : CommandList)).1 = _
  rw [drive_exhausted, hhalted₂]

theorem sources_agree_post :
    (∀ c ∈ [Command.fill ⟨1, 0, 0⟩, .halt], c.check = .ok ()) ∧
      ∃ bytes, Trace.encode [.fill ⟨1, 0, 0⟩, .halt] = .ok bytes ∧
        (clearing.runCommands [.fill ⟨1, 0, 0⟩, .halt]).1 = .ok .halted ∧
        ∃ energy, (clearing.setTrace bytes).runFull.1 = .ok energy := by
  have hvalid : ∀ c ∈ [Command.fill ⟨1, 0, 0⟩, .halt], c.check = .ok () := by
    simp only [List.forall_mem_cons]
    exact ⟨rfl, rfl, fun _ h => nomatch h⟩
  obtain ⟨bytes, hencode, -, hruns⟩ := sources_agree hvalid
  have htogether := hruns clearing reachable_clearing
  exact ⟨hvalid, bytes, hencode, runCommands_post, htogether.halts_iff.1 runCommands_post⟩

end Session

end VoxelSwarm
