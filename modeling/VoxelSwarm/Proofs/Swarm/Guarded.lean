import VoxelSwarm.Proofs.Matrix.Guarded
import VoxelSwarm.Proofs.Swarm.Coherent

/-!
# Guarded checks

A check has two ways to fail when its accesses are guarded: it refuses what it is given, or a guard
reports. `Checked` keeps the two apart; `plain` is a check without guards. A state with a consistent
matrix is checked without a report, whatever its bots are (`checkWellFormed_eq`): nobody is looked
for outside the grid, because the check asks first whether the bot is inside of it, and no
identifier outside the table of claimed ones, because it has been found to be that of a slot or a
valid one.
-/

namespace VoxelSwarm

namespace Guarded

/-- A check whose accesses are guarded. -/
abbrev Checked (ε : Type) : Type → Type := ExceptT ε (Except Fault)

/-- A check that no guard watches. -/
def plain {ε α : Type} (x : Except ε α) : Checked ε α := ExceptT.mk (.ok x)

section

variable {ε ε' α β : Type}

@[simp] theorem run_plain (x : Except ε α) : (plain x).run = .ok x := rfl

theorem plain_bind {x : Except ε α} {f : α → Checked ε β} {g : α → Except ε β}
    (h : ∀ a, x = .ok a → f a = plain (g a)) : (plain x >>= f) = plain (x >>= g) := by
  cases x with
  | error e => rfl
  | ok a => exact h a rfl

theorem lift_bind {x : Except Fault α} {a : α} (h : x = .ok a) (f : α → Checked ε β) :
    (ExceptT.lift x >>= f) = f a := by
  rw [h]
  rfl

theorem adapt_plain (x : Except ε α) (f : ε → ε') : (plain x).adapt f = plain (x.mapError f) :=
  rfl

end

/-! ## Checks of states -/

def checkReservedSlot (s : State) : Checked SetupError Unit := do
  ExceptT.lift (within 0 s.bots.size)
  plain s.checkReservedSlot

/-- The identifier of a bot is noted in a table with an entry for each slot, and the bot stands at a
void voxel of the grid where none of the earlier bots stands. -/
def checkPlace (m : Matrix) (earlier : List Bot) (b : Bot) : Checked SetupError Unit := do
  ExceptT.lift (within b.id.index botSlots)
  if ¬m.Holds b.position then plain (.error (.botOutOfBounds b.id b.position))
  else if ← ExceptT.lift (get m b.position) then
    plain (.error (.botInsideMatter b.id b.position))
  else match earlier.find? (·.position = b.position) with
    | some other => plain (.error (.sharedPosition other.id b.id b.position))
    | none => plain (.ok ())

def checkPlaces (m : Matrix) (earlier : List Bot) : List Bot → Checked SetupError Unit
  | [] => plain (.ok ())
  | b :: rest => do
    checkPlace m earlier b
    checkPlaces m (earlier ++ [b]) rest

/-- Each seed is a valid identifier that nobody else has claimed, as noted in the table. -/
def checkSeeds (claimed : List BotId) : List (BotId × BotId) → Checked SetupError Unit
  | [] => plain (.ok ())
  | (holder, seed) :: rest =>
    if ¬seed.Valid then plain (.error (.invalidSeed holder seed))
    else do
      ExceptT.lift (within seed.index botSlots)
      if seed ∈ claimed then plain (.error (.duplicateIdentifier seed))
      else checkSeeds (seed :: claimed) rest

def checkGrounded (s : State) : Checked SetupError Unit := do
  if s.harmonics = .low then
    let floating ← ExceptT.lift (floatingCount s.matrix)
    if 0 < floating then plain (.error (.ungrounded floating)) else plain (.ok ())
  else plain (.ok ())

def checkWellFormed (s : State) : Checked SetupError Unit := do
  plain s.checkSlotCount
  plain (State.checkSlots 0 s.bots.toList)
  checkReservedSlot s
  plain (s.matrix.checkSameResolution s.target)
  checkPlaces s.matrix [] s.activeBots
  checkSeeds s.activeIds s.heldSeeds
  plain s.checkActivity
  checkGrounded s

/-! ## No guard of them reports -/

variable {s : State} {m : Matrix} {b : Bot}

theorem checkReservedSlot_eq (h : 0 < s.bots.size) :
    checkReservedSlot s = plain s.checkReservedSlot :=
  lift_bind (within_eq h) _

theorem checkPlace_eq (hm : m.Consistent) (hb : b.id.index < botSlots) (earlier : List Bot) :
    checkPlace m earlier b = plain (State.checkPlace m earlier b) := by
  rw [checkPlace, lift_bind (within_eq hb), State.checkPlace]
  by_cases hin : m.Holds b.position
  · rw [if_neg (not_not_intro hin), if_neg (not_not_intro hin), lift_bind (get_eq hm hin)]
    cases m.get b.position with
    | true => rfl
    | false => cases earlier.find? (·.position = b.position) <;> rfl
  · rw [if_pos hin, if_pos hin]

theorem checkPlaces_eq (hm : m.Consistent) {bs earlier : List Bot}
    (hbs : ∀ b ∈ bs, b.id.index < botSlots) :
    checkPlaces m earlier bs = plain (State.checkPlaces m earlier bs) := by
  induction bs generalizing earlier with
  | nil => rfl
  | cons b bs ih =>
    obtain ⟨hb, hbs⟩ := List.forall_mem_cons.1 hbs
    rw [checkPlaces, State.checkPlaces, checkPlace_eq hm hb]
    exact plain_bind fun _ _ => ih hbs

theorem checkSeeds_eq {seeds : List (BotId × BotId)} {claimed : List BotId} :
    checkSeeds claimed seeds = plain (State.checkSeeds claimed seeds) := by
  induction seeds generalizing claimed with
  | nil => rfl
  | cons seed seeds ih =>
    rw [checkSeeds, State.checkSeeds]
    by_cases hvalid : seed.2.Valid
    · have hlt : seed.2.index < botSlots := Nat.lt_succ_of_le hvalid.2
      rw [if_neg (not_not_intro hvalid), if_neg (not_not_intro hvalid), lift_bind (within_eq hlt)]
      split
      · rfl
      · exact ih
    · rw [if_pos hvalid, if_pos hvalid]

theorem checkGrounded_eq (hm : s.matrix.Consistent) : checkGrounded s = plain s.checkGrounded := by
  rw [checkGrounded, State.checkGrounded]
  by_cases hlow : s.harmonics = .low
  · rw [if_pos hlow, lift_bind (floatingCount_eq hm)]
    by_cases hfloats : 0 < s.matrix.floatingCount
    · rw [if_pos hfloats, if_pos ⟨hlow, hfloats⟩]
    · rw [if_neg hfloats, if_neg fun h => hfloats h.2]
  · rw [if_neg hlow, if_neg fun h => hlow h.1]

/-- Bots are noted in the table after each has been found to be that of its slot. -/
theorem checkWellFormed_eq (hm : s.matrix.Consistent) :
    checkWellFormed s = plain s.checkWellFormed := by
  rw [checkWellFormed, State.checkWellFormed]
  refine plain_bind fun _ hcount => plain_bind fun _ hslots => ?_
  have hsize : s.bots.size = botSlots := by
    rw [State.checkSlotCount] at hcount
    split at hcount
    · assumption
    · cases hcount
  have hindex : ∀ b ∈ s.activeBots, b.id.index < botSlots := by
    intro b hb
    obtain ⟨i, hi⟩ := List.mem_iff_getElem?.1 (List.mem_filter.1 hb).1
    rw [State.checkSlots_eq_ok_iff.1 hslots i b hi, Nat.zero_add, ← hsize, ← Array.length_toList]
    exact (List.getElem?_eq_some_iff.1 hi).1
  rw [checkReservedSlot_eq (hsize ▸ Nat.succ_pos _)]
  refine plain_bind fun _ _ => plain_bind fun _ _ => ?_
  rw [checkPlaces_eq hm hindex]
  refine plain_bind fun _ _ => ?_
  rw [checkSeeds_eq]
  refine plain_bind fun _ _ => plain_bind fun _ _ => ?_
  exact checkGrounded_eq hm

end Guarded

end VoxelSwarm
