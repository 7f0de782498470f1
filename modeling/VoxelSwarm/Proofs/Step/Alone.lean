import VoxelSwarm.Proofs.Step.Runs

/-!
# A bot that is alone

The step of a bot that is alone (`State.Lone`) is what its command asks for and what it does, and no
more: nobody is in its way, and no other command bears on it. It succeeds if the command is valid,
the state permits it and nothing floats afterwards where that is looked for (`Lone.runStep_eq_ok`),
and it fails if something does (`Lone.runStep_eq_error`).
-/

namespace VoxelSwarm

namespace State

variable {s t : State} {rules : Rules} {b : Bot} {c : Command} {changed : Bool}

/-- The bot is the only one that is active, and the run goes on. -/
structure Lone (s : State) (b : Bot) : Prop extends s.Seated where
  active : s.activeBots = [b]
  goes : s.halted = false

theorem Coherent.lone (h : s.Coherent) (hone : s.activeBots = [b]) : s.Lone b where
  toSeated := h.toSeated
  active := hone
  goes := by
    rw [← Bool.not_eq_true, h.activity, hone]
    exact List.cons_ne_nil b []

namespace Lone

theorem mem (h : s.Lone b) : b ∈ s.activeBots := h.active ▸ List.mem_singleton_self b

theorem activeIds (h : s.Lone b) : s.activeIds = [b.id] := by
  rw [State.activeIds, h.active, List.map_singleton]

theorem command?_assign (h : s.Lone b) : (Plan.empty.assign b.id c).command? b.id = some c := by
  rw [Plan.command?_assign _ (h.index_lt (h.bot?_of_mem h.mem)), if_pos rfl]

theorem checkBot (h : s.Lone b) (hvalid : c.Valid)
    (hpermits : s.Permits rules (Plan.empty.assign b.id c) b c) :
    s.checkBot rules (Plan.empty.assign b.id c) b.id = .ok () :=
  (checkBot_eq_ok_iff h.toSeated h.mem).2 ⟨c, h.command?_assign, hvalid, hpermits⟩

theorem executeAll_eq (h : s.Lone b) :
    s.executeAll (Plan.empty.assign b.id c) [b.id] =
      (s.charge (Energy.passive s 1)).execute (Plan.empty.assign b.id c) b.id c := by
  unfold executeAll
  rw [List.foldl_cons, List.foldl_nil, executeBot]
  simp only [h.command?_assign, Bool.false_or]
  rfl

section Step

variable {σ : Type} [CommandSource σ] {src src' : σ}

theorem runStep_eq_ok (h : s.Lone b) (hnext : CommandSource.next src = (.ok c, src'))
    (hvalid : c.Valid) (hpermits : s.Permits rules (Plan.empty.assign b.id c) b c)
    (hexecute : (s.charge (Energy.passive s 1)).execute (Plan.empty.assign b.id c) b.id c =
      (t, changed))
    (hground : t.groundingDue rules s.harmonics changed = true → t.matrix.floatingCount = 0) :
    s.runStep rules src = (.ok ⟨1, t.energy - s.energy, t.halted⟩, t, src') := by
  rw [← h.executeAll_eq] at hexecute
  apply runStep_alone h.activeIds hnext (h.checkBot hvalid hpermits)
  · rw [hexecute]
  · rw [hexecute]
    exact hground

theorem runStep_eq_error (h : s.Lone b) (hnext : CommandSource.next src = (.ok c, src'))
    (hvalid : c.Valid) (hpermits : s.Permits rules (Plan.empty.assign b.id c) b c)
    (hexecute : (s.charge (Energy.passive s 1)).execute (Plan.empty.assign b.id c) b.id c =
      (t, changed))
    (hdue : t.groundingDue rules s.harmonics changed = true)
    (hfloats : 0 < t.matrix.floatingCount) :
    s.runStep rules src = (.error (.ungrounded t.matrix.floatingCount), t, src') := by
  rw [← h.executeAll_eq] at hexecute
  apply runStep_alone_floats h.activeIds hnext (h.checkBot hvalid hpermits)
  · rw [hexecute]
  · rw [hexecute]
    exact hdue
  · exact hfloats

end Step

end Lone

end State

end VoxelSwarm
