import VoxelSwarm.Proofs.Navigation.Moves
import VoxelSwarm.Proofs.Step.Legal

/-!
# The moves that a step permits

`Matrix.moveOffsets` looks for moves by walking outward from a voxel, and `moveCommand?` by taking a
displacement apart. A step looks at neither: it asks for valid arguments and checks the voxels that
the command sweeps. `State.MayMove` is that question, `mayMove_iff_move` reads it as `Matrix.Move`,
and with it the two searches are exact: what they list is what a step permits, and the command they
give is one of those that it permits, straight if it can be (`moveOffsets_exact`).
-/

namespace VoxelSwarm

namespace Displacement

variable {d : Displacement} {ds : List Displacement}

theorem nodup_distinct {seen : Std.HashSet Displacement} : (distinct seen ds).Nodup := by
  induction ds generalizing seen with
  | nil => exact List.nodup_nil
  | cons e ds ih =>
    unfold distinct
    split
    · exact ih
    · refine List.nodup_cons.2 ⟨fun hmem => ?_, ih⟩
      exact (mem_distinct.1 hmem).2 Std.HashSet.mem_insert_self

end Displacement

/-- A command that displaces the bot by `d`, has valid arguments and passes the checks of a step. -/
structure State.MayMove (s : State) (rules : Rules) (plan : Plan) (id : BotId) (d : Displacement)
    (c : Command) : Prop where
  check : c.check = .ok ()
  offset : c.offset? = some d
  precondition : s.checkPrecondition rules plan id c = .ok ()

namespace State

variable {s : State} {rules : Rules} {plan : Plan} {id : BotId} {p : Position}
  {d e lld : Displacement} {c : Command}

theorem free_iff_void : s.Free p ↔ s.matrix.Void p := by
  simp [Free, Matrix.Void, Matrix.isVoid]

theorem checkPrecondition_smove (hpos : s.positionOf id = p) :
    s.checkPrecondition rules plan id (.smove lld) = .ok () ↔
      ∀ q ∈ straightPath p lld, s.matrix.Void q := by
  simp only [checkPrecondition, checkAlone, checkTogether, seq_eq_ok_iff, checkPath_eq_ok_iff,
    free_iff_void, hpos, and_true]

theorem checkPrecondition_lmove (hpos : s.positionOf id = p) (hd : d.Linear) :
    s.checkPrecondition rules plan id (.lmove d e) = .ok () ↔
      ∀ q ∈ bentPath p d e, s.matrix.Void q := by
  simp only [checkPrecondition, checkAlone, checkTogether, seq_eq_ok_iff, checkPath_eq_ok_iff,
    free_iff_void, hpos, and_true, mem_bentPath hd, or_imp, forall_and]

/-- The checks of a step let through the moves whose voxels are all void. -/
theorem mayMove_iff_move (hpos : s.positionOf id = p) :
    s.MayMove rules plan id d c ↔ s.matrix.Move p c (p + d) := by
  constructor
  · rintro ⟨hcheck, hoffset, hpre⟩
    have hvalid := Command.check_eq_ok_iff.1 hcheck
    cases c <;> simp only [Command.offset?, Option.some.injEq, reduceCtorEq] at hoffset
    case smove lld =>
      subst hoffset
      have hlong : lld.LongLinear := hvalid (.longLinear, lld) (by simp [Command.arguments])
      exact .straight hlong ((checkPrecondition_smove hpos).1 hpre)
    case lmove d e =>
      subst hoffset
      have hd : d.ShortLinear := hvalid (.shortLinear, d) (by simp [Command.arguments])
      have he : e.ShortLinear := hvalid (.shortLinear, e) (by simp [Command.arguments])
      exact .bent hd he ((checkPrecondition_lmove hpos hd.1).1 hpre)
  · intro hmove
    generalize hq : p + d = q at hmove
    have hd : d = q - p := by rw [← hq, Position.add_sub_self]
    rw [hd]
    cases hmove with
    | straight hlong hpath =>
      refine ⟨Command.check_eq_ok_iff.2 ?_, ?_, (checkPrecondition_smove hpos).2 hpath⟩
      · exact List.forall_mem_singleton.2 hlong
      · rw [Position.add_sub_self, Command.offset?]
    | bent hfirst hsecond hpath =>
      refine ⟨Command.check_eq_ok_iff.2 ?_, ?_, (checkPrecondition_lmove hpos hfirst.1).2 hpath⟩
      · exact List.forall_mem_cons.2 ⟨hfirst, List.forall_mem_singleton.2 hsecond⟩
      · rw [Position.add_sub_self, Command.offset?]

end State

namespace Matrix

variable {m : Matrix} {p : Position} {d : Displacement} {c : Command}

theorem mem_moveOffsets_iff_move (hp : m.Void p) (hd : d ≠ .zero) :
    d ∈ m.moveOffsets p ↔ ∃ c, m.Move p c (p + d) := by
  rw [mem_moveOffsets]
  constructor
  · intro hlisted
    rw [← Position.add_sub_self p d] at hlisted
    obtain ⟨c, -, hmove⟩ := exists_move hp hlisted
    exact ⟨c, hmove⟩
  · rintro ⟨c, hmove⟩
    rcases mem_moves_of_move hp hmove with hback | hlisted
    · refine absurd ?_ hd
      have hsame : d = p - p := by rw [← Position.add_sub_self p d, hback]
      rw [hsame]
      ext <;> simp [Displacement.zero]
    · rwa [Position.add_sub_self] at hlisted

theorem isSome_moveCommand?_iff (hp : m.Void p) (hd : d ≠ .zero) :
    (m.moveCommand? p (p + d)).isSome = true ↔ d ∈ m.moveOffsets p := by
  rw [Option.isSome_iff_exists]
  constructor
  · rintro ⟨c, hc⟩
    exact (mem_moveOffsets_iff_move hp hd).2 ⟨c, move_of_moveCommand? hp hc⟩
  · intro hlisted
    rw [mem_moveOffsets, ← Position.add_sub_self p d] at hlisted
    obtain ⟨c, hc, -⟩ := exists_move hp hlisted
    exact ⟨c, hc⟩

theorem moveCommand?_of_straight (hp : m.Void p) (h : m.Move p (.smove d) (p + d)) :
    m.moveCommand? p (p + d) = some (.smove d) := by
  obtain ⟨hlong, hpath⟩ : d.LongLinear ∧ ∀ q ∈ straightPath p d, m.Void q := by
    generalize p + d = q at h
    cases h with
    | straight hlong hpath => exact ⟨hlong, hpath⟩
  rw [moveCommand?, Position.add_sub_self]
  exact if_pos ⟨hlong, (clearPath_iff hp).2 hpath⟩

/-- From a void voxel the displacements that are listed are those that a step permits with a
straight or a bent move, each one once, and there is a command for these and no others: one that the
step permits, and a straight one if it permits any. -/
theorem moveOffsets_exact {s : State} {rules : Rules} {plan : Plan} {id : BotId}
    (hm : s.matrix = m) (hpos : s.positionOf id = p) (hp : m.Void p) (hd : d ≠ .zero) :
    (d ∈ m.moveOffsets p ↔ ∃ c, s.MayMove rules plan id d c) ∧
      (m.moveOffsets p).Nodup ∧
      ((m.moveCommand? p (p + d)).isSome = true ↔ d ∈ m.moveOffsets p) ∧
      ∀ c, m.moveCommand? p (p + d) = some c → s.MayMove rules plan id d c ∧
        ∀ lld, s.MayMove rules plan id d (.smove lld) → c = .smove lld := by
  subst hm
  simp only [State.mayMove_iff_move hpos]
  refine ⟨mem_moveOffsets_iff_move hp hd, Displacement.nodup_distinct,
    isSome_moveCommand?_iff hp hd, fun c hc => ⟨move_of_moveCommand? hp hc, fun lld hlld => ?_⟩⟩
  have hmay : s.MayMove rules plan id d (.smove lld) := (State.mayMove_iff_move hpos).2 hlld
  have hsame : lld = d := Option.some.inj hmay.offset
  rw [hsame] at hlld ⊢
  exact Option.some.inj (hc.symm.trans (moveCommand?_of_straight hp hlld))

def pillar : Matrix := (Matrix.empty 3).setAll [⟨1, 0, 2⟩, ⟨1, 1, 2⟩] true

/-- A bot beside the pillar gets over it by rising first. -/
theorem moveOffsets_pillar :
    pillar.Void ⟨0, 1, 2⟩ ∧
      (⟨1, 1, 0⟩ ∈ pillar.moveOffsets ⟨0, 1, 2⟩ ∧ (pillar.moveOffsets ⟨0, 1, 2⟩).Nodup) ∧
      pillar.moveCommand? ⟨0, 1, 2⟩ ⟨1, 2, 2⟩ = some (.lmove ⟨0, 1, 0⟩ ⟨1, 0, 0⟩) ∧
      State.MayMove { State.crew with matrix := pillar } {} Plan.empty ⟨4⟩ ⟨1, 1, 0⟩
        (.lmove ⟨0, 1, 0⟩ ⟨1, 0, 0⟩) := by
  have hp : pillar.Void ⟨0, 1, 2⟩ := by decide +kernel
  have hcommand : pillar.moveCommand? ⟨0, 1, 2⟩ ⟨1, 2, 2⟩ =
      some (.lmove ⟨0, 1, 0⟩ ⟨1, 0, 0⟩) := by decide +kernel
  obtain ⟨-, hnodup, hlisted, hlegal⟩ := @moveOffsets_exact pillar ⟨0, 1, 2⟩ ⟨1, 1, 0⟩
    { State.crew with matrix := pillar } {} Plan.empty ⟨4⟩ rfl (by decide +kernel) hp (by decide)
  exact ⟨hp, ⟨hlisted.1 (Option.isSome_iff_exists.2 ⟨_, hcommand⟩), hnodup⟩, hcommand,
    (hlegal _ hcommand).1⟩

end Matrix

end VoxelSwarm
