import VoxelSwarm.Proofs.Navigation.Nearest
import VoxelSwarm.Proofs.Session.Sources
import VoxelSwarm.Proofs.Session.Staging
import VoxelSwarm.Proofs.Step.Travel

/-!
# Following a route

A search for a route looks at void voxels and knows nothing of steps. Yet a session whose only
active bot stands where the route starts can be given its commands as they are
(`Session.routeToNearest_followed`): each of them is a move through void voxels, a bot that is alone
can take it under all rules (`State.Lone.runStep_move`), and afterwards it is alone where the next
one starts, in a matrix that is still the one which was searched (`Session.exists_drive_of_moves`).
-/

namespace VoxelSwarm

open State

namespace Session

variable {e e' : Session} {b : Bot} {p q : Position} {cs : List Command}

/-! ## Moves from a list -/

/-- The moves are taken one after the other, and nothing else happens. -/
theorem exists_drive_of_moves {m : Matrix} (hmoves : m.Moves p cs q)
    (hrunning : e.status = .running) (hlone : e.state.Lone b) (hmatrix : e.state.matrix = m)
    (hstart : b.position = p) (offset : Nat) :
    ∃ e', drive .interactive (fun src : CommandList => !src.exhausted) (cs.length + 1) e
        ⟨cs, offset⟩ = (.ok .running, e', ⟨[], offset + cs.length⟩) ∧
      e'.stepCount = e.stepCount + cs.length ∧
      e'.state = (e.state.moveBot b.id q).charge (e.state.fare cs) := by
  induction hmoves generalizing e b offset with
  | nil p =>
    subst hstart
    refine ⟨e, ?_, rfl, ?_⟩
    · rw [drive_exhausted, hrunning]
      rfl
    · rw [hlone.moveBot_self, fare_nil, charge, Int.add_zero]
  | @cons p t q c cs hfirst _ ih =>
    subst hmatrix hstart
    have hnext : CommandSource.next (⟨c :: cs, offset⟩ : CommandList) =
        (.ok c, (⟨cs, offset + 1⟩ : CommandList)) := rfl
    obtain ⟨e₁, hadvance, htakes, hstate⟩ := exists_takes .interactive hrunning
      (hlone.runStep_move hfirst hnext)
    have hlone₁ : e₁.state.Lone { b with position := t } := hstate ▸ hlone.moveBot t _
    obtain ⟨e', hdrive, hcount, hend⟩ := ih (e := e₁) htakes.status hlone₁ (hstate ▸ rfl) rfl
      (offset + 1)
    refine ⟨e', ?_, ?_, ?_⟩
    · have hmore : (!(⟨c :: cs, offset⟩ : CommandList).exhausted) = true := rfl
      rw [drive, if_pos ⟨hrunning, hmore⟩, hadvance]
      show drive .interactive _ (cs.length + 1) e₁ (⟨cs, offset + 1⟩ : CommandList) = _
      rw [hdrive, List.length_cons, Nat.add_right_comm, Nat.add_assoc]
    · rw [hcount, htakes.stepCount, List.length_cons]
      omega
    · -- neither the steps nor the moves change what a step costs
      have hfare : e₁.state.fare cs = e.state.fare cs := by rw [hstate]; rfl
      calc e'.state
        _ = (e₁.state.moveBot b.id q).charge (e.state.fare cs) := by rw [hend, hfare]
        _ = (((e.state.moveBot b.id t).moveBot b.id q).charge
              (Energy.passive e.state 1 + movement (some c))).charge (e.state.fare cs) := by
          rw [hstate, moveBot_charge]
        _ = (e.state.moveBot b.id q).charge (e.state.fare (c :: cs)) := by
          rw [moveBot_moveBot, charge_charge, fare_cons]

/-! ## Routes -/

/-- What has become of a session whose only active bot has followed a route. -/
structure Follows (e : Session) (b : Bot) (route : Route) (e' : Session) : Prop where
  stepCount : e'.stepCount = e.stepCount + route.commands.length
  bot : e'.state.activeBots = [{ b with position := route.destination }]
  matrix : e'.state.matrix = e.state.matrix
  target : e'.state.target = e.state.target
  harmonics : e'.state.harmonics = e.state.harmonics
  energy : e'.state.energy = e.state.energy + e.state.fare route.commands

theorem exists_follows_of_moves {route : Route}
    (hmoves : e.state.matrix.Moves b.position route.commands route.destination)
    (hrunning : e.status = .running) (hlone : e.state.Lone b) :
    ∃ e', e.runCommands route.commands = (.ok .running, e') ∧ e.Follows b route e' := by
  obtain ⟨e', hdrive, hcount, hstate⟩ := exists_drive_of_moves hmoves hrunning hlone rfl rfl 0
  refine ⟨e', ?_, hcount, ?_, ?_, ?_, ?_, ?_⟩
  · rw [runCommands, CommandList.ofList, hdrive]
  · rw [hstate, (hlone.moveBot route.destination _).active]
  all_goals
    rw [hstate]
    rfl

/-- A route that has been found is a list of commands that can be run: every step succeeds, the bot
comes to the end of the route with the seeds it had, and nothing is paid for but steps and moves. -/
theorem routeToNearest_followed (n : Navigator) (targets : List Position) {route : Route}
    (hwell : e.state.checkWellFormed = .ok ()) (hrunning : e.status = .running)
    (hone : e.state.activeBots = [b]) (hr : e.state.resolution ≤ 250)
    (hroute : (n.routeToNearest e.state.matrix b.position targets).1 = some route) :
    ∃ e', e.runCommands route.commands = (.ok .running, e') ∧ e.Follows b route e' := by
  have hcoherent := (checkWellFormed_eq_ok_iff.1 hwell).1
  have hlone : e.state.Lone b := hcoherent.lone hone
  have hstart : e.state.matrix.Void b.position :=
    free_iff_void.1 ⟨hcoherent.inside b hlone.mem, hcoherent.void b hlone.mem⟩
  rcases n.routeToNearest_cases hr hstart targets with ⟨found, hfound, hshortest⟩ | ⟨hnone, -⟩
  · obtain rfl : found = route := Option.some.inj (hfound.symm.trans hroute)
    exact exists_follows_of_moves hshortest.legal hrunning hlone
  · exact nomatch hnone.symm.trans hroute

theorem routeToNearest_followed_corner :
    clearing.state.checkWellFormed = .ok () ∧ clearing.status = .running ∧
      clearing.state.activeBots = [founder] ∧ clearing.state.resolution ≤ 250 ∧
      ∃ route, (Navigator.used.routeToNearest clearing.state.matrix founder.position
          [⟨1, 1, 0⟩]).1 = some route ∧
        ∃ e', clearing.runCommands route.commands = (.ok .running, e') ∧
          clearing.Follows founder route e' := by
  have hwell : clearing.state.checkWellFormed = .ok () := by decide +kernel
  have hone : clearing.state.activeBots = [founder] := by decide +kernel
  have hr : clearing.state.resolution ≤ 250 := by decide
  have hstart : clearing.state.matrix.Void founder.position := by decide +kernel
  have hside : Linked clearing.state.matrix.Void founder.position ⟨1, 0, 0⟩ :=
    .of_touches hstart (by decide) (by decide +kernel)
  have hcorner : Linked clearing.state.matrix.Void founder.position ⟨1, 1, 0⟩ :=
    .step hside (by decide) (by decide +kernel)
  rcases Navigator.used.routeToNearest_cases hr hstart [⟨1, 1, 0⟩] with
    ⟨route, hroute, -⟩ | ⟨-, hall⟩
  · exact ⟨hwell, rfl, hone, hr, route, hroute,
      routeToNearest_followed Navigator.used _ hwell rfl hone hr hroute⟩
  · exact absurd (List.mem_singleton_self _) (hall _ hcorner)

end Session

end VoxelSwarm
