import VoxelSwarm.Proofs.Session.Stepwise

/-!
# Taking a state back

Only matter that floats under low harmonics keeps a session from taking a coherent state
(`setState_of_coherent`). Steps that succeed keep states coherent under every rule, so a session
takes back every state that a run has come to, unless the rules have let matter float there
(`setState_of_run`).
-/

namespace VoxelSwarm

theorem State.checkWellFormed_of_orderly {s : State} (h : s.Orderly)
    (hsame : s.matrix.resolution = s.target.resolution) :
    s.checkWellFormed = (do checkPlaces s.matrix [] s.activeBots; s.checkGrounded) := by
  -- with its matter taken away the state passes, so all checks that do not see matter pass
  have hpasses : s.hollow.checkWellFormed = .ok () :=
    checkWellFormed_eq_ok_iff.2 ⟨h, fun _ => Nat.zero_sub _⟩
  simp only [checkWellFormed, seq_eq_ok_iff] at hpasses
  obtain ⟨hcount, hslots, hreserved, -, -, hseeds, hactivity, -⟩ := hpasses
  have hcount' : s.checkSlotCount = .ok () := hcount
  have hslots' : checkSlots 0 s.bots.toList = .ok () := hslots
  have hreserved' : s.checkReservedSlot = .ok () := hreserved
  have hseeds' : checkSeeds s.activeIds s.heldSeeds = .ok () := hseeds
  have hactivity' : s.checkActivity = .ok () := hactivity
  rw [checkWellFormed, hcount', hslots', hreserved', Matrix.checkSameResolution, if_pos hsame,
    hseeds', hactivity']
  rfl

theorem State.checkWellFormed_of_coherent {s : State} (h : s.Coherent) :
    s.checkWellFormed = s.checkGrounded := by
  have hplaces : checkPlaces s.matrix [] s.activeBots = .ok () :=
    checkPlaces_eq_ok_iff.2 ⟨h.inside, h.void, by simp, h.apart⟩
  rw [checkWellFormed_of_orderly h.orderly h.resolution, hplaces]
  rfl

namespace Session

variable {e e' : Session} {s t : State}

/-- The session with another state in place of its own. -/
def restored (e : Session) (s : State) : Session :=
  { e with
    state := s
    status := if s.halted then .halted else .running
    stepCount := 0
    mode := none
    staged := Plan.empty }

@[simp] theorem state_restored (e : Session) (s : State) : (e.restored s).state = s := rfl

@[simp] theorem rules_restored (e : Session) (s : State) : (e.restored s).rules = e.rules := rfl

@[simp] theorem stepCount_restored (e : Session) (s : State) : (e.restored s).stepCount = 0 := rfl

theorem status_restored (e : Session) (s : State) :
    (e.restored s).status = if s.halted then .halted else .running := rfl

theorem setState_eq (e : Session) (s : State) :
    e.setState s = s.checkWellFormed.map fun _ => e.restored s := by
  rw [setState]
  cases s.checkWellFormed <;> rfl

theorem setState_eq_ok_iff :
    e.setState s = .ok e' ↔ s.checkWellFormed = .ok () ∧ e' = e.restored s := by
  rw [setState_eq]
  cases s.checkWellFormed with
  | error cause => exact ⟨fun h => (nomatch h), fun h => (nomatch h.1)⟩
  | ok _ => exact ⟨fun h => ⟨rfl, (Except.ok.inj h).symm⟩, fun h => congrArg Except.ok h.2.symm⟩

theorem setState_of_coherent (e : Session) (h : s.Coherent) :
    e.setState s =
      if s.harmonics = .low ∧ 0 < s.matrix.floatingCount then
        .error (.ungrounded s.matrix.floatingCount)
      else .ok (e.restored s) := by
  rw [setState_eq, State.checkWellFormed_of_coherent h, State.checkGrounded]
  split <;> rfl

theorem exists_start_of_create {source target : Option Matrix} {rules : Rules}
    (h : Session.create source target rules = .ok e) :
    ∃ m m', e = ofState (State.start m m') rules := by
  obtain ⟨s, hinitial, rfl⟩ := exists_initial_of_create h
  obtain ⟨m, m', rfl⟩ := State.exists_start_of_initial hinitial
  exact ⟨m, m', rfl⟩

/-- The session is about to take its first step from a state that makes sense. -/
structure Begins (e : Session) : Prop where
  wellFormed : e.state.checkWellFormed = .ok ()
  status : e.status = if e.state.halted then .halted else .running
  stepCount : e.stepCount = 0

theorem Begins.goes (h : e.Begins) (hrunning : e.status = .running) : e.state.halted = false := by
  have hstatus := h.status.symm.trans hrunning
  split at hstatus
  · cases hstatus
  · next hgoes => exact Bool.eq_false_iff.2 hgoes

theorem Begins.sound (h : e.Begins) (trace : List UInt8) : (e.setTrace trace).Sound :=
  ⟨(State.checkWellFormed_eq_ok_iff.1 h.wellFormed).1.orderly, h.goes, staged_empty _ rfl⟩

/-- A run of successful steps that has not halted has come to a state that any session takes, and
goes on from, unless matter floats there under low harmonics. Steps that look for floating matter
leave no such state. -/
theorem setState_of_run {rules : Rules} {rounds : List (State × Plan)}
    (hrun : State.Run rules s rounds t) (hm : s.matrix.Consistent)
    (hwf : s.checkWellFormed = .ok ()) (hgoes : t.halted = false) (e : Session) :
    (e.restored t).state = t ∧ (e.restored t).status = .running ∧
      e.setState t =
        (if t.harmonics = .low ∧ 0 < t.matrix.floatingCount then
          .error (.ungrounded t.matrix.floatingCount)
        else .ok (e.restored t)) ∧
      (rules.grounding = .everyStep → e.setState t = .ok (e.restored t)) := by
  have hcoherent := (State.checkWellFormed_eq_ok_iff.1 hwf).1
  refine ⟨rfl, ?_, setState_of_coherent e (hrun.coherent hcoherent hm).1, fun hg => ?_⟩
  · rw [status_restored, hgoes]
    rfl
  · exact setState_eq_ok_iff.2 ⟨hrun.wellFormed hg hm hwf, rfl⟩

theorem setState_crew_after :
    ∃ rounds t, State.Run {} State.crew rounds t ∧ t.halted = false ∧
      ((ofState State.crew {}).restored t).status = .running ∧
      (ofState State.crew {}).setState t = .ok ((ofState State.crew {}).restored t) := by
  have hrun := State.Run.cons State.crew_completes (.nil _)
  have hgoes : (State.crew.executeAll State.crewPlan State.crew.activeIds).1.halted = false := by
    decide +kernel
  obtain ⟨-, hstatus, -, hset⟩ := setState_of_run hrun (Matrix.Consistent.empty 3)
    State.crew_checkWellFormed hgoes (ofState State.crew {})
  exact ⟨_, _, hrun, hgoes, hstatus, hset rfl⟩

/-- The start of a run in an empty grid of side 3, with a trace that fills a voxel in the middle. -/
def building : Session :=
  (ofState (.start (Matrix.empty 3) (Matrix.empty 3)) ⟨.atHalt, false⟩).setTrace [0x8b]

/-- If floating matter is looked for at the halt only, a session that runs may have come to a state
that it does not take back. -/
theorem setState_refuses_reached :
    building.state.checkWellFormed = .ok () ∧
      ∃ e, building.runOneStep = (.ok .running, e) ∧ e.status = .running ∧
        e.setState e.state = .error (.ungrounded 1) := by
  have hstart : building.state =
      ⟨Matrix.empty 3, Matrix.empty 3, State.foundingSlots, 0, .low, false⟩ := State.start_eq ..
  have hids : building.state.activeIds = [BotId.first] := by decide +kernel
  obtain ⟨e, hone, htakes, hstate, -⟩ := exists_takes_of_runStep (e := building) rfl
    (State.runStep_alone (c := .fill ⟨0, 1, 1⟩) hids (by rfl) (by decide +kernel) rfl
      (by decide +kernel))
  have hstatus : e.status = .running := htakes.status.trans (by decide +kernel)
  have hfloats : e.state.checkWellFormed = .error (.ungrounded 1) := by
    rw [hstate, hstart]
    decide +kernel
  rw [hstatus] at hone
  refine ⟨?_, e, hone, hstatus, ?_⟩
  · rw [hstart]
    decide +kernel
  · rw [setState_eq, hfloats]
    rfl

end Session

end VoxelSwarm
