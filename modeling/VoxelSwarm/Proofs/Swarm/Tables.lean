import VoxelSwarm.Proofs.Swarm.Guarded
import VoxelSwarm.Proofs.Step.Legal

/-!
# The tables of the check

Who is who among the active bots and their seeds can be found out with two tables that are filled
while the bots are gone through: whether an identifier is taken, with an entry for each slot, and
who stands at a voxel. The check with tables is guarded at each access to the first of them, and
the number of active bots is that of the entries of the second.

`Tell` relates the tables to the bots that have been gone through, and each step of the check keeps
it as long as nothing is refused. So the tables give the verdict of `checkWellFormed`, and no guard
reports, whatever the bots of the state are (`checkTables_eq`). Together with what the verdict asks
for, this is `checkWellFormed_exact`.
-/

namespace VoxelSwarm

namespace Guarded

/-- What is noted about the bots that have been gone through. -/
structure Tables where
  /-- Whether the identifier of a slot is taken. -/
  taken : Array Bool
  /-- Who stands where. -/
  occupant : Std.HashMap Position BotId

namespace Tables

def blank : Tables := ⟨Array.replicate botSlots false, ∅⟩

def note (t : Tables) (b : Bot) : Tables :=
  ⟨t.taken.setIfInBounds b.id.index true, t.occupant.insert b.position b.id⟩

end Tables

/-- Takes an identifier, and tells whether it had been taken before. -/
def take (taken : Array Bool) (id : BotId) : Except Fault (Bool × Array Bool) :=
  match taken[id.index]? with
  | some before => .ok (before, taken.setIfInBounds id.index true)
  | none => .error (.pastEnd id.index taken.size)

/-- Notes a bot that stands at a void voxel of the grid where nobody stands so far. -/
def place (m : Matrix) (t : Tables) (b : Bot) : Checked SetupError Tables := do
  let (_, taken) ← ExceptT.lift (take t.taken b.id)
  if ¬m.Holds b.position then plain (.error (.botOutOfBounds b.id b.position))
  else if ← ExceptT.lift (get m b.position) then
    plain (.error (.botInsideMatter b.id b.position))
  else match t.occupant[b.position]? with
    | some first => plain (.error (.sharedPosition first b.id b.position))
    | none => plain (.ok ⟨taken, t.occupant.insert b.position b.id⟩)

def placeAll (m : Matrix) : List Bot → Tables → Checked SetupError Tables
  | [], t => plain (.ok t)
  | b :: rest, t => do placeAll m rest (← place m t b)

/-- Takes each seed, which has to be valid and free. -/
def takeSeeds : List (BotId × BotId) → Array Bool → Checked SetupError Unit
  | [], _ => plain (.ok ())
  | (holder, seed) :: rest, taken =>
    if ¬seed.Valid then plain (.error (.invalidSeed holder seed))
    else do
      let (before, taken) ← ExceptT.lift (take taken seed)
      if before then plain (.error (.duplicateIdentifier seed)) else takeSeeds rest taken

/-- There are active bots, `active` of them, exactly while the run has not halted. -/
def checkHeadcount (s : State) (active : Nat) : Except SetupError Unit :=
  if s.halted ∧ 0 < active then .error (.activeAfterHalt active)
  else if ¬s.halted ∧ active = 0 then .error .noActiveBots
  else .ok ()

/-- Reports the first reason for which a state does not make sense, as the tables tell it. -/
def checkTables (s : State) : Checked SetupError Unit := do
  plain s.checkSlotCount
  plain (State.checkSlots 0 s.bots.toList)
  checkReservedSlot s
  plain (s.matrix.checkSameResolution s.target)
  let t ← placeAll s.matrix s.activeBots Tables.blank
  takeSeeds s.heldSeeds t.taken
  plain (checkHeadcount s t.occupant.size)
  checkGrounded s

/-! ## What the tables tell -/

variable {s : State} {m : Matrix} {b : Bot} {bots : List Bot} {t : Tables} {taken : Array Bool}
  {ids ids' : List BotId} {id : BotId}

/-- The identifiers that are marked as taken are the listed ones. -/
structure Marks (taken : Array Bool) (ids : List BotId) : Prop where
  size : taken.size = botSlots
  mem : ∀ id : BotId, taken[id.index]? = some true ↔ id ∈ ids

/-- The tables tell about these bots. -/
structure Tables.Tell (t : Tables) (bots : List Bot) : Prop where
  marks : Marks t.taken (bots.map (·.id))
  occupant : ∀ p, t.occupant[p]? = (bots.find? (·.position = p)).map (·.id)
  size : t.occupant.size = bots.length

theorem Marks.take_eq (h : Marks taken ids) (hid : id.index < botSlots) :
    take taken id = .ok (decide (id ∈ ids), taken.setIfInBounds id.index true) := by
  have hsome := Array.getElem?_eq_getElem (h.size ▸ hid : id.index < taken.size)
  have hmem := h.mem id
  rw [hsome, Option.some.injEq] at hmem
  rw [take, hsome, ← Bool.decide_congr hmem, Bool.decide_eq_true]

theorem Marks.set (h : Marks taken ids) (hid : id.index < botSlots)
    (hids : ∀ x, x ∈ ids' ↔ x = id ∨ x ∈ ids) :
    Marks (taken.setIfInBounds id.index true) ids' where
  size := by rw [Array.size_setIfInBounds, h.size]
  mem x := by
    rw [Array.getElem?_setIfInBounds, hids]
    split
    · next hx =>
      rw [if_pos (h.size ▸ hid)]
      exact ⟨fun _ => Or.inl (BotId.index_inj.1 hx.symm), fun _ => rfl⟩
    · next hx => rw [h.mem, or_iff_right fun heq => hx (by rw [heq])]

theorem tell_blank : Tables.blank.Tell [] where
  marks := ⟨Array.size_replicate, fun id => by simp [Tables.blank, Array.getElem?_replicate]⟩
  occupant p := Std.HashMap.getElem?_empty
  size := Std.HashMap.size_empty

theorem find?_eq_none_of_free (hfree : ∀ other ∈ bots, other.position ≠ b.position) :
    bots.find? (·.position = b.position) = none :=
  List.find?_eq_none.2 fun other hother => by simpa using hfree other hother

/-- The tables tell about one bot more when it stands where none of the others does. -/
theorem Tables.Tell.note (h : t.Tell bots) (hb : b.id.index < botSlots)
    (hfree : ∀ other ∈ bots, other.position ≠ b.position) : (t.note b).Tell (bots ++ [b]) where
  marks := h.marks.set hb fun x => by simp [or_comm]
  occupant p := by
    rw [Tables.note, Std.HashMap.getElem?_insert, h.occupant, List.find?_append]
    by_cases hp : b.position = p
    · simp [← hp, find?_eq_none_of_free hfree]
    · simp [hp]
  size := by
    have hnew : b.position ∉ t.occupant := by
      rw [Std.HashMap.mem_iff_isSome_getElem?, h.occupant, find?_eq_none_of_free hfree]
      exact Bool.false_ne_true
    rw [Tables.note, Std.HashMap.size_insert, if_neg hnew, h.size, List.length_append]
    rfl

/-! ## The tables give the verdict of the check -/

theorem place_eq (hm : m.Consistent) (hb : b.id.index < botSlots) (h : t.Tell bots) :
    place m t b = plain (State.checkPlace m bots b >>= fun _ => .ok (t.note b)) := by
  rw [place, lift_bind (h.marks.take_eq hb), State.checkPlace]
  dsimp only
  by_cases hin : m.Holds b.position
  · rw [if_neg (not_not_intro hin), if_neg (not_not_intro hin), lift_bind (get_eq hm hin),
      h.occupant]
    cases m.get b.position with
    | true => rfl
    | false => cases bots.find? (·.position = b.position) <;> rfl
  · rw [if_pos hin, if_pos hin]
    rfl

theorem placeAll_eq (hm : m.Consistent) {bs : List Bot} (hbs : ∀ b ∈ bs, b.id.index < botSlots)
    (h : t.Tell bots) :
    placeAll m bs t =
      plain (State.checkPlaces m bots bs >>= fun _ => .ok (bs.foldl Tables.note t)) := by
  induction bs generalizing t bots with
  | nil => rfl
  | cons b bs ih =>
    obtain ⟨hb, hbs⟩ := List.forall_mem_cons.1 hbs
    rw [placeAll, State.checkPlaces, place_eq hm hb h]
    cases hplace : State.checkPlace m bots b with
    | error e => rfl
    | ok _ =>
      obtain ⟨-, -, hfree⟩ := State.checkPlace_eq_ok_iff.1 hplace
      exact ih hbs (h.note hb hfree)

theorem tell_foldl_note {bs : List Bot} (hbs : ∀ b ∈ bs, b.id.index < botSlots)
    (hplaces : State.checkPlaces m bots bs = .ok ()) (h : t.Tell bots) :
    (bs.foldl Tables.note t).Tell (bots ++ bs) := by
  induction bs generalizing t bots with
  | nil => rwa [List.append_nil]
  | cons b bs ih =>
    obtain ⟨hb, hbs⟩ := List.forall_mem_cons.1 hbs
    obtain ⟨hplace, hrest⟩ := State.seq_eq_ok_iff.1 hplaces
    obtain ⟨-, -, hfree⟩ := State.checkPlace_eq_ok_iff.1 hplace
    rw [List.append_cons]
    exact ih hbs hrest (h.note hb hfree)

theorem takeSeeds_eq {seeds : List (BotId × BotId)} (h : Marks taken ids) :
    takeSeeds seeds taken = plain (State.checkSeeds ids seeds) := by
  induction seeds generalizing taken ids with
  | nil => rfl
  | cons seed seeds ih =>
    rw [takeSeeds, State.checkSeeds]
    by_cases hvalid : seed.2.Valid
    · have hlt : seed.2.index < botSlots := Nat.lt_succ_of_le hvalid.2
      rw [if_neg (not_not_intro hvalid), if_neg (not_not_intro hvalid),
        lift_bind (h.take_eq hlt)]
      by_cases hmem : seed.2 ∈ ids
      · simp only [hmem, decide_true, if_true]
      · simp only [hmem, decide_false, if_false, Bool.false_eq_true]
        exact ih (h.set hlt fun x => List.mem_cons)
    · rw [if_pos hvalid, if_pos hvalid]

theorem checkTables_eq (hm : s.matrix.Consistent) : checkTables s = plain s.checkWellFormed := by
  rw [checkTables, State.checkWellFormed]
  refine plain_bind fun _ hcount => plain_bind fun _ hslots => ?_
  have hseated := State.checkSeated_eq_ok_iff.1 ⟨hcount, hslots⟩
  have hindex : ∀ b ∈ s.activeBots, b.id.index < botSlots :=
    fun b hb => hseated.index_lt (hseated.bot?_of_mem hb)
  rw [checkReservedSlot_eq (hseated.size ▸ Nat.succ_pos _)]
  refine plain_bind fun _ _ => plain_bind fun _ _ => ?_
  rw [placeAll_eq hm hindex tell_blank]
  cases hplaces : State.checkPlaces s.matrix [] s.activeBots with
  | error e => rfl
  | ok _ =>
    have htell := tell_foldl_note hindex hplaces tell_blank
    rw [List.nil_append] at htell
    change (takeSeeds s.heldSeeds (s.activeBots.foldl Tables.note Tables.blank).taken >>= _) = _
    rw [takeSeeds_eq htell.marks, htell.size]
    exact plain_bind fun _ _ => plain_bind fun _ _ => checkGrounded_eq hm

end Guarded

/-! ## What a state needs to pass -/

namespace State

variable {s : State}

/-- Whatever the bots of a state are, its check comes to a verdict without an access out of bounds.
The state passes just when slot `i` of its 41 slots holds bot `i` and slot 0 no active one, both
grids are of one size, the active bots stand at void voxels of the grid, no two of them at the same,
all seeds are valid and no identifier is taken twice among active bots and seeds, there are active
bots just when the run has not halted, and low harmonics find every full voxel grounded. -/
theorem checkWellFormed_exact (hm : s.matrix.Consistent) :
    (Guarded.checkTables s).run = .ok s.checkWellFormed ∧
    (s.checkWellFormed = .ok () ↔
      s.bots.size = 41 ∧
      (∀ (i : Nat) (b : Bot), s.bots[i]? = some b → b.id.index = i) ∧
      (∀ b, s.bots[0]? = some b → b.active = false) ∧
      s.matrix.resolution = s.target.resolution ∧
      (∀ b ∈ s.activeBots, s.matrix.Holds b.position ∧ s.matrix.get b.position = false) ∧
      s.activeBots.Pairwise (fun b b' => b.position ≠ b'.position) ∧
      (∀ b ∈ s.activeBots, ∀ x ∈ b.seeds, 1 ≤ x.index ∧ x.index ≤ 40) ∧
      (s.activeIds ++ s.activeBots.flatMap (·.seeds)).Nodup ∧
      (s.halted = true ↔ s.activeBots = []) ∧
      (s.harmonics = .low → ∀ p, s.matrix.Full p → s.matrix.Grounded p)) := by
  refine ⟨by rw [Guarded.checkTables_eq hm, Guarded.run_plain], ?_⟩
  have hident : s.identifiers.Nodup ↔ (s.activeIds ++ s.activeBots.flatMap (·.seeds)).Nodup := by
    rw [identifiers_perm.nodup_iff, map_snd_heldSeeds]
  rw [checkWellFormed_eq_ok_iff, Matrix.floatingCount_eq_zero_iff hm]
  constructor
  · rintro ⟨h, hground⟩
    exact ⟨h.size, h.slot_id, h.reserved_iff.1 h.reserved, h.resolution,
      fun b hb => ⟨h.inside b hb, h.void b hb⟩, List.pairwise_map.1 h.apart, h.seeds,
      hident.1 h.identifiers, h.activity, hground⟩
  · rintro ⟨hsize, hslots, hidle, hres, hplaces, hapart, hseeds, hnodup, hactivity, hground⟩
    have hseated : s.Seated := ⟨hsize, hslots⟩
    exact ⟨⟨hseated, hseated.reserved_iff.2 hidle, hres, fun b hb => (hplaces b hb).1,
      fun b hb => (hplaces b hb).2, List.pairwise_map.2 hapart, hseeds, hident.2 hnodup,
      hactivity⟩, hground⟩

/-- A crew in which bot 3 holds the identifier of bot 4, which is active, as a seed. -/
def contested : State := crew.install ⟨⟨3⟩, ⟨2, 0, 0⟩, [⟨6⟩, ⟨4⟩], true⟩

theorem checkWellFormed_exact_contested :
    crew.matrix.Consistent ∧ (Guarded.checkTables crew).run = .ok (.ok ()) ∧
    (crew.activeIds ++ crew.activeBots.flatMap (·.seeds)).Nodup ∧
    contested.matrix.Consistent ∧
    (Guarded.checkTables contested).run = .ok (.error (.duplicateIdentifier ⟨4⟩)) ∧
    ¬(contested.activeIds ++ contested.activeBots.flatMap (·.seeds)).Nodup := by
  have hempty := Matrix.Consistent.empty 3
  have hrefused : contested.checkWellFormed = .error (.duplicateIdentifier ⟨4⟩) := by decide +kernel
  obtain ⟨hrun, hpasses⟩ := @checkWellFormed_exact crew hempty
  obtain ⟨hrun', -⟩ := @checkWellFormed_exact contested hempty
  obtain ⟨-, -, -, -, -, -, -, hident, -⟩ := hpasses.1 crew_checkWellFormed
  exact ⟨hempty, by rw [hrun, crew_checkWellFormed], hident, hempty, by rw [hrun', hrefused],
    by decide +kernel⟩

end State

end VoxelSwarm
