import VoxelSwarm.Proofs.Navigation.MoveGraph
import VoxelSwarm.Proofs.Step.Alone
import VoxelSwarm.Proofs.Step.Ledger

/-!
# Moving through void voxels

A bot that is alone takes every move through void voxels as one step, under all rules
(`State.Lone.runStep_move`): it stands where the move ends, the move and the step are paid for, and
everything else is as before. So it can take the next move from there (`State.Lone.moveBot`), and
what a list of moves costs is known from the start (`State.fare`).
-/

namespace VoxelSwarm

namespace Matrix

variable {m : Matrix} {p q : Position} {c : Command}

theorem Move.valid (h : m.Move p c q) : c.Valid := by
  cases h with
  | straight hlong _ => exact List.forall_mem_singleton.2 hlong
  | bent hfirst hsecond _ =>
    exact List.forall_mem_cons.2 ⟨hfirst, List.forall_mem_singleton.2 hsecond⟩

end Matrix

namespace State

variable {s : State} {rules : Rules} {b : Bot} {p q : Position} {c : Command}

/-! ## Moving a bot -/

theorem updateBot_updateBot (s : State) (id : BotId) (f g : Bot → Bot) :
    (s.updateBot id f).updateBot id g = s.updateBot id fun b => g (f b) := by
  have hbots : (s.bots.modify id.index f).modify id.index g =
      s.bots.modify id.index fun b => g (f b) := by
    apply Array.ext (by simp only [Array.size_modify])
    intro i hi hi'
    simp only [Array.getElem_modify]
    split <;> rfl
  simp only [updateBot, hbots]

theorem moveBot_moveBot (s : State) (id : BotId) (p q : Position) :
    (s.moveBot id p).moveBot id q = s.moveBot id q := updateBot_updateBot ..

theorem charge_charge (s : State) (a b : Int) : (s.charge a).charge b = s.charge (a + b) := by
  unfold charge
  rw [Int.add_assoc]

theorem moveBot_charge (s : State) (a : Int) (id : BotId) (p : Position) :
    (s.charge a).moveBot id p = (s.moveBot id p).charge a := rfl

theorem Seated.moveBot (h : s.Seated) (id : BotId) (q : Position) : (s.moveBot id q).Seated := by
  apply h.updateBot
  intro x hx
  exact (h.id_eq hx :)

namespace Lone

theorem moveBot_self (h : s.Lone b) : s.moveBot b.id b.position = s := by
  have hseated : (s.moveBot b.id b.position).Seated := h.toSeated.moveBot b.id b.position
  have hbots : (s.moveBot b.id b.position).bots = s.bots := by
    apply hseated.bots_ext h.toSeated
    intro k
    rw [State.moveBot, bot?_updateBot]
    split
    · next heq =>
      rw [← heq, h.bot?_of_mem h.mem]
      rfl
    · rfl
  show (⟨s.matrix, s.target, (s.moveBot b.id b.position).bots, s.energy, s.harmonics,
    s.halted⟩ : State) = s
  rw [hbots]

theorem moveBot (h : s.Lone b) (q : Position) (amount : Int) :
    ((s.moveBot b.id q).charge amount).Lone { b with position := q } := by
  have hseated : (s.moveBot b.id q).Seated := h.toSeated.moveBot b.id q
  refine ⟨⟨hseated.size, hseated.slot_id⟩, ?_, h.goes⟩
  show (s.moveBot b.id q).activeBots = _
  rw [← List.perm_singleton,
    List.perm_ext_iff_of_nodup hseated.nodup_activeBots (List.nodup_singleton _)]
  intro x
  rw [hseated.mem_activeBots, State.moveBot, bot?_updateBot, List.mem_singleton]
  constructor
  · rintro ⟨hx, hactive⟩
    split at hx
    · next heq =>
      rw [← heq, h.bot?_of_mem h.mem] at hx
      exact (Option.some.inj hx).symm
    · next hne =>
      have hmem := h.mem_activeBots.2 ⟨hx, hactive⟩
      rw [h.active, List.mem_singleton] at hmem
      exact absurd (congrArg Bot.id hmem).symm hne
  · rintro rfl
    rw [if_pos rfl, h.bot?_of_mem h.mem]
    exact ⟨rfl, (h.mem_activeBots.1 h.mem).2⟩

/-! ## One move -/

theorem permits_move {plan : Plan} (hmove : s.matrix.Move b.position c q) :
    s.Permits rules plan b c := by
  cases hmove with
  | straight _ hpath => exact fun p hp => free_iff_void.2 (hpath p hp)
  | bent _ _ hpath => exact fun p hp => free_iff_void.2 (hpath p hp)

theorem execute_move (h : s.Lone b) (hmove : s.matrix.Move b.position c q) (plan : Plan) :
    (s.charge (Energy.passive s 1)).execute plan b.id c =
      ((s.moveBot b.id q).charge (Energy.passive s 1 + movement (some c)), false) := by
  have hposition : (s.charge (Energy.passive s 1)).positionOf b.id = b.position :=
    h.positionOf_eq h.mem
  cases hmove with
  | straight _ _ =>
    simp only [execute, hposition, moveBot_charge, charge_charge, movement, Energy.straight]
  | bent _ _ _ =>
    simp only [execute, hposition, moveBot_charge, charge_charge, movement, Energy.bent,
      Position.add_add]

/-- The matrix and the harmonics stay as they are, so no rule looks for floating matter. -/
theorem runStep_move {σ : Type} [CommandSource σ] {src src' : σ} (h : s.Lone b)
    (hmove : s.matrix.Move b.position c q) (hnext : CommandSource.next src = (.ok c, src')) :
    s.runStep rules src =
      (.ok ⟨1, Energy.passive s 1 + movement (some c), false⟩,
        (s.moveBot b.id q).charge (Energy.passive s 1 + movement (some c)), src') := by
  have hnot : ((s.moveBot b.id q).charge (Energy.passive s 1 + movement (some c))).groundingDue
      rules s.harmonics false = false := groundingDue_of_unchanged h.goes rfl
  rw [h.runStep_eq_ok hnext hmove.valid (permits_move hmove) (h.execute_move hmove _)
    (fun hdue => absurd (hnot.symm.trans hdue) Bool.false_ne_true)]
  have henergy : s.energy + (Energy.passive s 1 + movement (some c)) - s.energy =
      Energy.passive s 1 + movement (some c) := by omega
  show (Except.ok (⟨1, s.energy + (Energy.passive s 1 + movement (some c)) - s.energy,
    s.halted⟩ : StepReport), _) = _
  rw [henergy, h.goes]

end Lone

/-! ## What moves cost -/

/-- What a bot that is alone pays for moves: as many steps, and the moves themselves. -/
def fare (s : State) (cs : List Command) : Int :=
  cs.length * Energy.passive s 1 + (cs.map fun c => movement (some c)).sum

theorem fare_nil (s : State) : s.fare [] = 0 := by simp [fare]

theorem fare_cons (s : State) (c : Command) (cs : List Command) :
    s.fare (c :: cs) = Energy.passive s 1 + movement (some c) + s.fare cs := by
  simp only [fare, List.length_cons, List.map_cons, List.sum_cons, Int.natCast_add,
    Int.natCast_one, Int.add_mul, Int.one_mul]
  omega

end State

end VoxelSwarm
