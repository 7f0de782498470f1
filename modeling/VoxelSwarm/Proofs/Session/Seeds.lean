import VoxelSwarm.Proofs.Session.Lifecycle
import VoxelSwarm.Proofs.Snapshot.Storable
import VoxelSwarm.Proofs.Step.SeedOrder

/-!
# Seeds along a session

The seeds in a session come from the state that was installed last, or else from the one that it
started from (`seedsFrom_performAll`). If they ascended there, they always do, and bots give the
lowest of their identifiers away (`seeds_ascend`). A state is not asked for that when it is
installed, so one whose seeds are in disorder keeps them so (`disordered_installed`).
-/

namespace VoxelSwarm

namespace State

variable {s t : State} {rules : Rules}

theorem Evolves.orderly (h : Evolves rules s t) (hs : s.Orderly) : t.Orderly := by
  induction h with
  | refl => exact hs
  | tail _ hcarries ih =>
    obtain ⟨plan, hl, rfl⟩ := hcarries
    exact ih.executeAll hl

theorem Evolves.seedsFrom (h : Evolves rules s t) (hs : s.Orderly) : s.SeedsFrom t := by
  induction h with
  | refl => exact .refl s
  | tail hbefore hcarries ih =>
    obtain ⟨plan, hl, rfl⟩ := hcarries
    exact ih.trans ((Evolves.orderly hbefore hs).seedsFrom_executeAll hl)

end State

namespace Session

variable {e : Session}

/-- The state that operations have installed last, or else the one before them. -/
def lastInstalled (e : Session) (ops : List Operation) : State :=
  (ops.filterMap Operation.installed?).getLast?.getD e.state

theorem lastInstalled_concat (e : Session) (ops : List Operation) (op : Operation) :
    e.lastInstalled (ops ++ [op]) = op.installed?.getD (e.lastInstalled ops) := by
  rw [lastInstalled, List.filterMap_append, List.getLast?_append]
  cases hinstalled : op.installed? <;> simp [hinstalled, lastInstalled]

theorem Reachable.seedsFrom_performAll (h : Reachable e) (ops : List Operation) :
    (e.lastInstalled ops).SeedsFrom (e.performAll ops).state := by
  induction ops using List.reverseRecOn with
  | nil => exact .refl e.state
  | append_singleton ops op ih =>
    have hsound := (h.performAll ops).sound
    rw [performAll_concat, lastInstalled_concat]
    cases hsound.effect op with
    | installs hinstalled hafter =>
      rw [hinstalled, hafter]
      exact .refl _
    | drives hmode hdrives _ =>
      rw [Operation.installed?_of_mode? hmode]
      exact ih.trans (hdrives.evolves.seedsFrom hsound.orderly)
    | rests hinstalled _ hrests =>
      rw [hinstalled, hrests.state]
      exact ih

/-- After any operations on a session that has been created: if the state that was installed last
has its seeds in ascending order, or if none was installed, then all active bots have theirs so, and
whatever a bot hands over are its lowest identifiers. -/
theorem seeds_ascend {source target : Option Matrix} {rules : Rules}
    (hcreate : Session.create source target rules = .ok e) (ops : List Operation)
    (hinstalled : ∀ s ∈ (ops.filterMap Operation.installed?).getLast?, s.SeedsAscend) :
    ∀ b ∈ (e.performAll ops).state.activeBots, b.Ascending ∧
      ∀ (m : Nat) (child : BotId) (seeds : List BotId) (b' : Bot),
        b.handOver m = some (child, seeds, b') →
          b.seeds = child :: seeds ++ b'.seeds ∧ seeds.length = m ∧
            (∀ x ∈ seeds, child.index < x.index) ∧
            ∀ x ∈ child :: seeds, ∀ y ∈ b'.seeds, x.index < y.index := by
  have hfrom := (Reachable.create hcreate).seedsFrom_performAll ops
  have hbefore : (e.lastInstalled ops).SeedsAscend := by
    rw [lastInstalled]
    cases hlast : (ops.filterMap Operation.installed?).getLast? with
    | some s => exact hinstalled s hlast
    | none =>
      obtain ⟨s, hinitial, rfl⟩ := exists_initial_of_create hcreate
      exact State.seedsAscend_of_initial hinitial
  intro b hb
  have hascending := hfrom.seedsAscend hbefore b hb
  exact ⟨hascending, fun _ _ _ _ => Bot.lowest_of_handOver hascending⟩

/-- A crew that is installed and then fuses and splits has its seeds in order, and the bot that
splits gives its lowest one away. -/
theorem seeds_ascend_crew :
    Session.create (some (Matrix.empty 3)) none {} = .ok clearing ∧ State.crew.SeedsAscend ∧
    (clearing.performAll [.setState State.crew, .runCommands State.crewCommands]).state.SeedsAscend ∧
    ∃ b ∈ (clearing.performAll [.setState State.crew]).state.activeBots, ∃ b',
      b.handOver 0 = some (⟨6⟩, [], b') ∧ b'.seeds = [⟨7⟩] ∧ ∀ y ∈ b'.seeds, 6 < y.index := by
  have hcrew : State.crew.SeedsAscend := by decide +kernel
  have hinstalled : (Operation.setState State.crew).installed? = some State.crew := by
    simp only [Operation.installed?, State.crew_checkWellFormed]
  have hlast (ops : List Operation) (hops : ops.filterMap Operation.installed? = []) :
      ∀ s ∈ ((Operation.setState State.crew :: ops).filterMap Operation.installed?).getLast?,
        s.SeedsAscend := by
    intro s hs
    rw [List.filterMap_cons_some hinstalled, hops] at hs
    exact Option.some.inj hs ▸ hcrew
  have hruns := seeds_ascend create_clearing _ (hlast [.runCommands State.crewCommands] rfl)
  have hstays := seeds_ascend create_clearing _ (hlast [] rfl)
  have hafter : clearing.performAll [.setState State.crew] = clearing.restored State.crew := by
    rw [performAll, List.foldl_cons, List.foldl_nil, Operation.perform,
      setState_eq_ok_iff.2 ⟨State.crew_checkWellFormed, rfl⟩]
  have hmem : (⟨⟨3⟩, ⟨2, 0, 0⟩, [⟨6⟩, ⟨7⟩], true⟩ : Bot) ∈
      (clearing.performAll [.setState State.crew]).state.activeBots := by
    rw [hafter]
    decide +kernel
  have hlowest := (hstays _ hmem).2 0 ⟨6⟩ [] ⟨⟨3⟩, ⟨2, 0, 0⟩, [⟨7⟩], true⟩ rfl
  exact ⟨create_clearing, hcrew, fun b hb => (hruns b hb).1, _, hmem, _, rfl, rfl,
    hlowest.2.2.2 ⟨6⟩ List.mem_cons_self⟩

end Session

namespace State

def disordered : State :=
  { finished with
    bots := idleSlots.modify BotId.first.index fun _ =>
      ⟨BotId.first, Position.origin, [⟨3⟩, ⟨2⟩], true⟩
    halted := false }

theorem storable_disordered : disordered.Storable := by
  have hempty : (Matrix.empty 3).Storable := ⟨.empty 3, by decide⟩
  have horigin : ∀ b ∈ disordered.bots.toList, b.position = Position.origin := by decide +kernel
  exact ⟨⟨hempty, hempty, fun b hb => (horigin b hb).symm ▸ Position.storable_origin⟩, by decide⟩

end State

namespace Session

/-- Seeds that descend are read back from a snapshot, make sense and are installed as they are. When
the bot splits then, the new one is bot 3, although bot 2 was to be had. -/
theorem disordered_installed :
    Snapshot.decode (Snapshot.mk 0 0 .disordered).encode = .ok ⟨0, 0, .disordered⟩ ∧
      clearing.setState .disordered = .ok (clearing.restored .disordered) ∧
      ¬(clearing.restored .disordered).state.SeedsAscend ∧
      ∃ b ∈ (clearing.restored .disordered).state.activeBots, ∃ b',
        b.handOver 0 = some (⟨3⟩, [], b') ∧ ⟨2⟩ ∈ b'.seeds := by
  have hdecode := Snapshot.decode_encode (s := ⟨0, 0, .disordered⟩)
    ⟨by decide, by decide, State.storable_disordered⟩
  have hset : clearing.setState .disordered = .ok (clearing.restored .disordered) :=
    setState_eq_ok_iff.2 ⟨by decide +kernel, rfl⟩
  have hmem : (⟨BotId.first, Position.origin, [⟨3⟩, ⟨2⟩], true⟩ : Bot) ∈
      State.disordered.activeBots := by
    decide +kernel
  exact ⟨hdecode, hset, by decide +kernel, _, hmem, _, rfl, List.mem_singleton_self _⟩

end Session

end VoxelSwarm
