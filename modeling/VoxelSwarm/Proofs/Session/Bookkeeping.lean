import VoxelSwarm.Proofs.Session.Effects
import VoxelSwarm.Proofs.Session.Staging
import VoxelSwarm.Proofs.Step.Coverage
import VoxelSwarm.Proofs.Step.Groups
import VoxelSwarm.Proofs.Step.Interference

/-!
# What is staged

The bot whose command is staged next is found by counting the staged commands, so these have to be
those of the first active bots. `Booked` says that they are, and that each was accepted after those
before it in the state that the session is still in. Whatever changes the state drops what is staged
(`dropped_or_kept`), and what leaves it adds the command of the next bot or nothing
(`Booked.perform`). What staged commands are like in every session that operations lead to is
`staged_exact`. So a commit that goes through carries out a legal plan, and all that is known of
those holds of it (`commit_carries`).
-/

namespace VoxelSwarm

theorem State.AcceptsAll.concat {s : State} {rules : Rules} {ps qs : List (BotId × Command)}
    {x : BotId × Command} (h : s.AcceptsAll rules ps qs) (hx : s.Accepts rules (ps ++ qs) x) :
    s.AcceptsAll rules ps (qs ++ [x]) := by
  induction qs generalizing ps with
  | nil => exact ⟨by rwa [List.append_nil] at hx, trivial⟩
  | cons y qs ih => exact ⟨h.1, ih h.2 (by rwa [List.append_cons] at hx)⟩

theorem State.exists_next {s : State} {ps qs : List (BotId × Command)} {id : BotId} {c : Command}
    (hids : (ps ++ qs).map (·.1) = s.activeIds) (hid : s.activeIds[ps.length]? = some id) :
    ∃ rest, (ps ++ (id, c) :: rest).map (·.1) = s.activeIds := by
  cases qs with
  | nil =>
    rw [← hids, List.append_nil, List.getElem?_eq_none (by simp)] at hid
    cases hid
  | cons x rest =>
    rw [← hids] at hid
    obtain rfl : x.1 = id := by simpa using hid
    exact ⟨rest, by simpa using hids⟩

namespace Session

variable {e e' : Session} {ps : List (BotId × Command)} {c : Command}

/-- The first active bots have staged commands, those of `ps`, each of which was accepted after
those before it. -/
structure Booked (e : Session) (ps : List (BotId × Command)) : Prop where
  staged : e.staged = Plan.ofPairs ps
  ids : ∃ qs, (ps ++ qs).map (·.1) = e.state.activeIds
  accepted : e.state.AcceptsAll e.rules [] ps

/-- What was staged in the same state is still there. -/
structure Kept (e e' : Session) : Prop where
  state : e'.state = e.state
  rules : e'.rules = e.rules
  staged : e'.staged = e.staged

theorem booked_nil (hstaged : e.staged = Plan.empty) : e.Booked [] where
  staged := hstaged
  ids := ⟨e.state.activeIds.map fun id => (id, .wait), by simp [Function.comp_def]⟩
  accepted := trivial

theorem Booked.of_kept (h : e.Booked ps) (hkept : Kept e e') : e'.Booked ps where
  staged := hkept.staged.trans h.staged
  ids := hkept.state ▸ h.ids
  accepted := hkept.state ▸ hkept.rules ▸ h.accepted

/-! ## What operations do to it -/

theorem kept_of_eq (h : e' = e) : Kept e e' := by
  subst h
  exact ⟨rfl, rfl, rfl⟩

theorem advance_dropped {σ : Type} [CommandSource σ] (e : Session) (mode : RunMode) (src : σ) :
    (e.advance mode src).2.1.staged = Plan.empty ∨ (e.advance mode src).2.1 = e := by
  unfold advance
  split
  · exact .inr rfl
  · exact .inl (staged_conclude ..)

theorem drive_dropped {σ : Type} [CommandSource σ] (mode : RunMode) (more : σ → Bool) (fuel : Nat)
    (e : Session) (src : σ) :
    (drive mode more fuel e src).2.1.staged = Plan.empty ∨
      (drive mode more fuel e src).2.1 = e := by
  induction fuel generalizing e src with
  | zero => exact .inr rfl
  | succ fuel ih =>
    unfold drive
    split
    · have hfirst := e.advance_dropped mode src
      split
      · next heq => rwa [heq] at hfirst
      · next e₁ src₁ heq =>
        rw [heq] at hfirst
        rcases ih e₁ src₁ with hdropped | hsame
        · exact .inl hdropped
        · rwa [hsame]
    · exact .inr rfl

theorem commitStagedStep_dropped (e : Session) :
    e.commitStagedStep.2.staged = Plan.empty ∨ e.commitStagedStep.2 = e := by
  unfold commitStagedStep
  split
  · exact .inr rfl
  · exact .inl (staged_conclude ..)

/-- Every operation drops what is staged or keeps it as it is, except for one that stages. -/
theorem dropped_or_kept (e : Session) (op : Operation) :
    (op.perform e).staged = Plan.empty ∨ Kept e (op.perform e) ∨
      ∃ c, op = .stageCommand c ∧ e.stageCommand c = .ok (op.perform e) := by
  have hrest : ∀ {e₁ : Session}, e₁.staged = Plan.empty ∨ e₁ = e → ∀ trace : TraceReader,
      ({ e₁ with trace } : Session).staged = Plan.empty ∨ Kept e { e₁ with trace } ∨
        ∃ c, op = .stageCommand c ∧ e.stageCommand c = .ok { e₁ with trace } := by
    rintro e₁ (hdropped | rfl) trace
    · exact .inl hdropped
    · exact .inr (.inl ⟨rfl, rfl, rfl⟩)
  cases op with
  | setTrace bytes => exact .inl rfl
  | setState s =>
    rw [Operation.perform, setState_eq]
    cases s.checkWellFormed with
    | ok _ => exact .inl rfl
    | error _ => exact .inr (.inl (kept_of_eq rfl))
  | setProblem name | setSolution name | observe => exact .inr (.inl ⟨rfl, rfl, rfl⟩)
  | runOneStep => exact hrest (e.advance_dropped .interactive e.trace) _
  | runFull =>
    have hdrive := drive_dropped .auto (fun _ => true) (e.trace.remaining + 1) e e.trace
    simp only [Operation.perform, runFull]
    split
    · exact .inr (.inl (kept_of_eq rfl))
    · split
      · next heq =>
        rw [heq] at hdrive
        exact hrest hdrive _
      · next heq =>
        rw [heq] at hdrive
        exact hrest hdrive _
  | runCommands cs =>
    exact (drive_dropped .interactive (fun src : CommandList => !src.exhausted) (cs.length + 1) e
      (CommandList.ofList cs)).imp_right fun hsame => .inl (kept_of_eq hsame)
  | checkCommand c => exact .inr (.inl (kept_of_eq rfl))
  | stageCommand c =>
    cases hstage : e.stageCommand c with
    | ok e' => exact .inr (.inr ⟨c, rfl, by simp only [Operation.perform, hstage]⟩)
    | error _ => exact .inr (.inl (kept_of_eq (by simp only [Operation.perform, hstage])))
  | commitStagedStep =>
    exact e.commitStagedStep_dropped.imp_right fun hsame => .inl (kept_of_eq hsame)

theorem Booked.stageCommand (h : e.Booked ps) (hseated : e.state.Seated)
    (hstage : e.stageCommand c = .ok e') : ∃ id, e'.Booked (ps ++ [(id, c)]) := by
  obtain ⟨qs, hids⟩ := h.ids
  have hsize : e.staged.size = ps.length := by
    rw [h.staged, (State.distinct_of_ids hseated hids).left.size_ofPairs]
  have hrunning : e.status = .running := by
    by_contra hover
    simp [Session.stageCommand, checkCommand, checkRunning, hover] at hstage
    cases hstage
  obtain ⟨-, id, hid, -⟩ := stageCommand_eq_ok hstage
  rw [hsize] at hid
  obtain ⟨rest, hids'⟩ := State.exists_next (c := c) hids hid
  have hawaits : e.Awaits ps ((id, c) :: rest) := ⟨hrunning, h.staged, hids'⟩
  obtain ⟨haccepts, rfl⟩ := (hawaits.stageCommand_eq_ok_iff hseated).1 hstage
  rw [List.append_cons] at hids'
  exact ⟨id, rfl, ⟨rest, hids'⟩, h.accepted.concat haccepts⟩

theorem Booked.perform (h : e.Booked ps) (hseated : e.state.Seated) (op : Operation) :
    ∃ ps', (op.perform e).Booked ps' := by
  rcases e.dropped_or_kept op with hdropped | hkept | ⟨c, -, hstage⟩
  · exact ⟨[], booked_nil hdropped⟩
  · exact ⟨ps, h.of_kept hkept⟩
  · obtain ⟨id, hbooked⟩ := h.stageCommand hseated hstage
    exact ⟨ps ++ [(id, c)], hbooked⟩

theorem Reachable.booked (h : Reachable e) : ∃ ps, e.Booked ps := by
  induction h with
  | create hcreate =>
    obtain ⟨s, -, rfl⟩ := exists_initial_of_create hcreate
    exact ⟨[], booked_nil rfl⟩
  | perform op hreachable ih =>
    obtain ⟨ps, hbooked⟩ := ih
    exact hbooked.perform hreachable.sound.orderly.seated op

/-! ## What is staged in a session -/

namespace Booked

variable {id id' : BotId} {c' : Command}

theorem distinct (h : e.Booked ps) (hseated : e.state.Seated) : Plan.Distinct ps := by
  obtain ⟨qs, hids⟩ := h.ids
  exact (State.distinct_of_ids hseated hids).left

theorem size (h : e.Booked ps) (hseated : e.state.Seated) : e.staged.size = ps.length := by
  rw [h.staged, (h.distinct hseated).size_ofPairs]

theorem command?_iff (h : e.Booked ps) (hseated : e.state.Seated) :
    e.staged.command? id = some c ↔ (id, c) ∈ ps := by
  rw [h.staged, (h.distinct hseated).command?_ofPairs]

theorem take_size (h : e.Booked ps) (hseated : e.state.Seated) :
    e.state.activeIds.take e.staged.size = ps.map (·.1) := by
  obtain ⟨qs, hids⟩ := h.ids
  rw [h.size hseated, ← hids, List.map_append]
  exact List.take_left' (List.length_map _)

theorem exists_command?_iff (h : e.Booked ps) (hseated : e.state.Seated) :
    (∃ c, e.staged.command? id = some c) ↔ id ∈ e.state.activeIds.take e.staged.size := by
  rw [h.take_size hseated, List.mem_map]
  constructor
  · rintro ⟨c, hc⟩
    exact ⟨(id, c), (h.command?_iff hseated).1 hc, rfl⟩
  · rintro ⟨⟨k, c⟩, hmem, rfl⟩
    exact ⟨c, (h.command?_iff hseated).2 hmem⟩

theorem size_le (h : e.Booked ps) (hseated : e.state.Seated) :
    e.staged.size ≤ e.state.activeIds.length := by
  obtain ⟨qs, hids⟩ := h.ids
  rw [h.size hseated, ← hids, List.map_append, List.length_append, List.length_map]
  exact Nat.le_add_right ..

theorem stepIsComplete_iff (h : e.Booked ps) (hseated : e.state.Seated) :
    e.stepIsComplete = true ↔
      ∀ id ∈ e.state.activeIds, id ∈ e.state.activeIds.take e.staged.size := by
  have hcount : e.state.activeCount = e.state.activeIds.length := (List.length_map _).symm
  rw [Session.stepIsComplete, beq_iff_eq, hcount]
  constructor
  · intro hsize id hid
    rwa [hsize, List.take_length]
  · intro hall
    have hle := (hseated.nodup_activeIds.subperm hall).length_le
    rw [List.length_take] at hle
    exact Nat.le_antisymm (h.size_le hseated) (hle.trans (Nat.min_le_left ..))

theorem disjoint (h : e.Booked ps) (hseated : e.state.Seated) (hne : id ≠ id')
    (hc : e.staged.command? id = some c) (hc' : e.staged.command? id' = some c') :
    List.Disjoint (e.state.footprint e.staged id c) (e.state.footprint e.staged id' c') := by
  have hmem := List.mem_map_of_mem (f := (·.1)) ((h.command?_iff hseated).1 hc)
  have hmem' := List.mem_map_of_mem (f := (·.1)) ((h.command?_iff hseated).1 hc')
  have hapart := h.accepted.apart (by rintro rfl; cases hmem)
  rw [List.nil_append, State.checkFootprints_eq_ok_iff_none, ← h.staged,
    State.findInterference?_eq_none_iff_disjoint (h.distinct hseated).nodup] at hapart
  rw [← State.claimed_eq hc, ← State.claimed_eq hc']
  exact hapart id hmem id' hmem' hne

end Booked

/-- Whatever has been done to a session, the staged commands are those of the first active bots, in
the order of identifiers, as many as there are. Each is valid and fit to be carried out, as far as
that can be judged alone, in the state that the session is in; what they claim is disjoint, and the
step is complete just when every active bot has one. -/
theorem staged_exact (h : Reachable e) :
    e.state.activeIds.Pairwise (fun i j => i.index < j.index) ∧
    e.staged.size ≤ e.state.activeIds.length ∧
    (∀ id, (∃ c, e.staged.command? id = some c) ↔ id ∈ e.state.activeIds.take e.staged.size) ∧
    (∀ id c, e.staged.command? id = some c →
      c.check = .ok () ∧ e.state.checkAlone e.rules id c = .ok ()) ∧
    (∀ id c id' c', e.staged.command? id = some c → e.staged.command? id' = some c' → id ≠ id' →
      List.Disjoint (e.state.footprint e.staged id c) (e.state.footprint e.staged id' c')) ∧
    (e.stepIsComplete = true ↔ ∀ id ∈ e.state.activeIds, ∃ c, e.staged.command? id = some c) := by
  obtain ⟨ps, hbooked⟩ := h.booked
  have hseated := h.sound.orderly.seated
  have hexists : ∀ id, (∃ c, e.staged.command? id = some c) ↔
      id ∈ e.state.activeIds.take e.staged.size := fun id => hbooked.exists_command?_iff hseated
  refine ⟨List.pairwise_map.2 hseated.ascending_activeBots, hbooked.size_le hseated, hexists,
    fun id c hc => ?_, fun id c id' c' hc hc' hne => hbooked.disjoint hseated hne hc hc', ?_⟩
  · obtain ⟨hvalid, halone⟩ := hbooked.accepted.of_mem ((hbooked.command?_iff hseated).1 hc)
    exact ⟨Command.check_eq_ok_iff.2 hvalid, halone⟩
  · simp only [hexists]
    exact hbooked.stepIsComplete_iff hseated

def crewPairs : List (BotId × Command) :=
  [(⟨1⟩, .fusionP ⟨1, 0, 0⟩), (⟨2⟩, .fusionS ⟨-1, 0, 0⟩), (⟨3⟩, .fission ⟨0, 1, 0⟩ 1),
    (⟨4⟩, .fill ⟨0, -1, 0⟩)]

/-- Two bots of a crew have their commands staged, and two are still to get theirs. -/
def halfStaged : Session :=
  (ofState State.crew {}).withStaged (Plan.ofPairs (crewPairs.take 2))

theorem Awaits.reachable {qs : List (BotId × Command)} {x : BotId × Command}
    (h : e.Awaits ps (x :: qs)) (hreachable : Reachable e)
    (haccepts : e.state.Accepts e.rules ps x) :
    Reachable (e.withStaged (Plan.ofPairs (ps ++ [x]))) := by
  have hstage :=
    (h.stageCommand_eq_ok_iff hreachable.sound.orderly.seated).2 ⟨haccepts, rfl⟩
  have hnext := hreachable.perform (.stageCommand x.2)
  rwa [Operation.perform, hstage] at hnext

theorem reachable_halfStaged : Reachable halfStaged := by
  have hids : crewPairs.map (·.1) = State.crew.activeIds := by decide +kernel
  have hplan : Plan.ofPairs crewPairs = State.crewPlan := rfl
  have hall : State.crew.AcceptsAll {} [] crewPairs :=
    State.acceptsAll_of_checkPlan State.crew_coherent.toSeated hids (hplan ▸ State.crew_checkPlan)
  obtain ⟨hfirst, hsecond, -⟩ := hall
  have hawaits : Awaits (ofState State.crew {}) [] crewPairs := ⟨rfl, rfl, hids⟩
  have hone := hawaits.reachable reachable_crew hfirst
  have hawaits' : Awaits ((ofState State.crew {}).withStaged (Plan.ofPairs (crewPairs.take 1)))
      (crewPairs.take 1) (crewPairs.drop 1) := ⟨rfl, rfl, hids⟩
  exact hawaits'.reachable hone hsecond

theorem staged_exact_halfStaged : Reachable halfStaged ∧ halfStaged.staged.size = 2 ∧
    halfStaged.state.activeIds = [⟨1⟩, ⟨2⟩, ⟨3⟩, ⟨4⟩] ∧
    (∀ id, (∃ c, halfStaged.staged.command? id = some c) ↔ id ∈ [⟨1⟩, ⟨2⟩]) ∧
    halfStaged.stepIsComplete = false := by
  have hsize : halfStaged.staged.size = 2 := by decide +kernel
  have hids : halfStaged.state.activeIds = [⟨1⟩, ⟨2⟩, ⟨3⟩, ⟨4⟩] := by decide +kernel
  obtain ⟨-, -, hexists, -, -, hcomplete⟩ := staged_exact reachable_halfStaged
  rw [hsize, hids] at hexists
  refine ⟨reachable_halfStaged, hsize, hids, hexists, Bool.eq_false_iff.2 fun hall => ?_⟩
  -- bot 3 is still to get one
  have hthird := (hexists ⟨3⟩).1 (hcomplete.1 hall ⟨3⟩ (by simp [hids]))
  exact absurd hthird (by decide)

/-! ## What a commit carries out -/

/-- A commit carries out the staged commands as they are: each team has its box to itself and writes
it once, and each bot finds at its turn whom it found before the step and touches only its
footprint. -/
theorem commit_carries (h : Reachable e) (hrunning : e.status = .running)
    (hcoherent : e.state.Coherent) (hm : e.state.matrix.Consistent)
    (hdone : CarriedOut e.commitStagedStep.1) :
    (e.state.executeAll e.staged e.state.activeIds).1 = e.commitStagedStep.2.state ∧
    (∀ kind g, e.state.team e.staged kind g ≠ [] →
      e.state.Secluded e.staged kind g ∧ e.state.Attended e.staged kind g) ∧
    ∀ done b rest, e.state.activeBots = done ++ b :: rest → e.state.Steady e.staged done b ∧
      ∃ c, e.staged.command? b.id = some c ∧
        e.state.Confined e.staged b c (e.state.partway e.staged done).1
          ((e.state.partway e.staged done).1.execute e.staged b.id c).1 := by
  obtain ⟨hok, hafter⟩ := checkPlan_of_commitStagedStep hrunning hdone
  have hseated := hcoherent.toSeated
  have hl := State.legal_of_checkPlan hseated h.sound.staged hok
  exact ⟨hafter, fun kind g hteam => ⟨hl.secluded hseated hteam, hl.attended hcoherent hm hteam⟩,
    fun done b rest hsplit =>
      ⟨hl.steady hcoherent hm hsplit, hl.exists_confined hcoherent hm hsplit⟩⟩

end Session

end VoxelSwarm
