import Mathlib.Data.List.Perm.Basic
import VoxelSwarm.Proofs.Swarm.Slots
import VoxelSwarm.Swarm.WellFormed

/-!
# Coherent states

`Coherent` says what a sensible state is, except for what low harmonics ask of the matrix, and
`checkWellFormed_eq_ok_iff` that the check asks for it and for nothing floating under low harmonics.
Each check is read off on its own first. `Arranged` is the part of it that is about the swarm alone:
it does not ask where matter is, and it is all that carrying out a step needs to know.
-/

namespace VoxelSwarm

namespace State

variable {s : State}

/-- The identifiers that are taken: those of the active bots and of their seeds. -/
def identifiers (s : State) : List BotId := s.activeBots.flatMap fun b => b.id :: b.seeds

/-- A state that makes sense but for floating matter. -/
structure Coherent (s : State) : Prop extends s.Seated where
  reserved : ∀ b ∈ s.activeBots, b.id.index ≠ 0
  resolution : s.matrix.resolution = s.target.resolution
  inside : ∀ b ∈ s.activeBots, s.matrix.Holds b.position
  void : ∀ b ∈ s.activeBots, s.matrix.get b.position = false
  apart : (s.activeBots.map (·.position)).Nodup
  seeds : ∀ b ∈ s.activeBots, ∀ x ∈ b.seeds, x.Valid
  identifiers : s.identifiers.Nodup
  activity : s.halted = true ↔ s.activeBots = []

/-- A state whose active bots make sense together, wherever there is matter. -/
structure Arranged (s : State) : Prop extends s.Seated where
  reserved : ∀ b ∈ s.activeBots, b.id.index ≠ 0
  apart : (s.activeBots.map (·.position)).Nodup
  seeds : ∀ b ∈ s.activeBots, ∀ x ∈ b.seeds, x.Valid
  identifiers : s.identifiers.Nodup

theorem Coherent.arranged (h : s.Coherent) : s.Arranged where
  toSeated := h.toSeated
  reserved := h.reserved
  apart := h.apart
  seeds := h.seeds
  identifiers := h.identifiers

instance : Coe s.Coherent s.Arranged := ⟨Coherent.arranged⟩

/-! ## What each check asks for -/

theorem seq_eq_ok_iff {ε : Type} {x y : Except ε Unit} :
    (do x; y) = .ok () ↔ x = .ok () ∧ y = .ok () := by
  cases x with
  | error e => exact ⟨fun h => (nomatch h), fun h => (nomatch h.1)⟩
  | ok _ => exact ⟨fun h => ⟨rfl, h⟩, fun h => h.2⟩

theorem seq_eq_error_iff {ε : Type} {x y : Except ε Unit} {e : ε} :
    (do x; y) = .error e ↔ x = .error e ∨ x = .ok () ∧ y = .error e := by
  cases x with
  | error e' => exact ⟨Or.inl, fun h => h.resolve_right fun h' => (nomatch h'.1)⟩
  | ok _ => exact ⟨fun h => Or.inr ⟨rfl, h⟩, fun h => (h.resolve_left fun h' => nomatch h').2⟩

theorem guard_eq_ok_iff {ε : Type} {p : Prop} [Decidable p] {e : ε} {x : Except ε Unit} :
    (if p then .error e else x) = .ok () ↔ ¬p ∧ x = .ok () := by
  by_cases hp : p
  · rw [if_pos hp]
    exact ⟨fun h => (nomatch h), fun h => absurd hp h.1⟩
  · rw [if_neg hp]
    exact ⟨fun h => ⟨hp, h⟩, fun h => h.2⟩

theorem checkSlots_eq_ok_iff {slot : Nat} {l : List Bot} :
    checkSlots slot l = .ok () ↔ ∀ (i : Nat) (b : Bot), l[i]? = some b → b.id.index = slot + i := by
  induction l generalizing slot with
  | nil => simp [checkSlots]
  | cons x l ih =>
    rw [checkSlots]
    constructor
    · intro h i b hb
      split at h
      · next hx =>
        cases i with
        | zero =>
          obtain rfl : x = b := by simpa using hb
          exact hx
        | succ i =>
          have := ih.1 h i b (by simpa using hb)
          omega
      · cases h
    · intro h
      have hx : x.id.index = slot := h 0 x rfl
      rw [if_pos hx, ih]
      intro i b hb
      have := h (i + 1) b (by simpa using hb)
      omega

theorem checkPlace_eq_ok_iff {m : Matrix} {earlier : List Bot} {b : Bot} :
    checkPlace m earlier b = .ok () ↔
      m.Holds b.position ∧ m.get b.position = false ∧
        ∀ other ∈ earlier, other.position ≠ b.position := by
  unfold checkPlace
  by_cases hin : m.Holds b.position
  · rw [if_neg (not_not_intro hin)]
    cases hvoid : m.get b.position with
    | true => simp
    | false =>
      rw [if_neg Bool.false_ne_true]
      split
      · next other hother =>
        have hmem := List.mem_of_find?_eq_some hother
        have hat : other.position = b.position := by simpa using List.find?_some hother
        exact ⟨fun h => (nomatch h), fun h => absurd hat (h.2.2 other hmem)⟩
      · next hnone =>
        refine ⟨fun _ => ⟨hin, rfl, fun other hmem => ?_⟩, fun _ => rfl⟩
        simpa using List.find?_eq_none.1 hnone other hmem
  · rw [if_pos hin]
    exact ⟨fun h => (nomatch h), fun h => absurd h.1 hin⟩

theorem checkPlaces_eq_ok_iff {m : Matrix} {earlier l : List Bot} :
    checkPlaces m earlier l = .ok () ↔
      (∀ b ∈ l, m.Holds b.position) ∧ (∀ b ∈ l, m.get b.position = false) ∧
        (∀ other ∈ earlier, ∀ b ∈ l, other.position ≠ b.position) ∧
        (l.map (·.position)).Nodup := by
  induction l generalizing earlier with
  | nil => simp [checkPlaces]
  | cons x l ih =>
    rw [checkPlaces, seq_eq_ok_iff, checkPlace_eq_ok_iff, ih]
    simp only [List.forall_mem_cons, List.mem_append, List.mem_singleton, List.map_cons,
      List.nodup_cons, List.mem_map, not_exists, not_and]
    constructor
    · rintro ⟨⟨hin, hvoid, hx⟩, hins, hvoids, hearlier, hnodup⟩
      exact ⟨⟨hin, hins⟩, ⟨hvoid, hvoids⟩, fun o ho => ⟨hx o ho, hearlier o (Or.inl ho)⟩,
        fun b hb heq => hearlier x (Or.inr rfl) b hb heq.symm, hnodup⟩
    · rintro ⟨⟨hin, hins⟩, ⟨hvoid, hvoids⟩, hearlier, hx, hnodup⟩
      refine ⟨⟨hin, hvoid, fun o ho => (hearlier o ho).1⟩, hins, hvoids, ?_, hnodup⟩
      rintro o (ho | rfl) b hb
      · exact (hearlier o ho).2 b hb
      · exact fun heq => hx b hb heq.symm

theorem checkSeeds_eq_ok_iff {claimed : List BotId} {l : List (BotId × BotId)} :
    checkSeeds claimed l = .ok () ↔
      (∀ x ∈ l, x.2.Valid) ∧ (∀ x ∈ l, x.2 ∉ claimed) ∧ (l.map (·.2)).Nodup := by
  induction l generalizing claimed with
  | nil => simp [checkSeeds]
  | cons x l ih =>
    obtain ⟨holder, seed⟩ := x
    rw [checkSeeds]
    simp only [List.forall_mem_cons, List.map_cons, List.nodup_cons, List.mem_map, not_exists,
      not_and]
    by_cases hvalid : seed.Valid
    · rw [if_neg (not_not_intro hvalid)]
      by_cases hclaimed : seed ∈ claimed
      · rw [if_pos hclaimed]
        exact ⟨fun h => (nomatch h), fun h => absurd hclaimed h.2.1.1⟩
      · rw [if_neg hclaimed, ih]
        constructor
        · rintro ⟨hvalids, hfree, hnodup⟩
          refine ⟨⟨hvalid, hvalids⟩, ⟨hclaimed, fun y hy hmem => ?_⟩, fun y hy heq => ?_, hnodup⟩
          · exact hfree y hy (List.mem_cons_of_mem _ hmem)
          · exact hfree y hy (heq ▸ List.mem_cons_self)
        · rintro ⟨⟨_, hvalids⟩, ⟨_, hfree⟩, hseed, hnodup⟩
          refine ⟨hvalids, fun y hy hmem => ?_, hnodup⟩
          rcases List.mem_cons.1 hmem with heq | hmem
          · exact hseed y hy heq
          · exact hfree y hy hmem
    · rw [if_pos hvalid]
      exact ⟨fun h => (nomatch h), fun h => absurd h.1.1 hvalid⟩

theorem checkActivity_eq_ok_iff :
    s.checkActivity = .ok () ↔ (s.halted = true ↔ s.activeBots = []) := by
  rw [checkActivity, activeCount, ← List.length_eq_zero_iff]
  by_cases hhalted : s.halted = true <;> by_cases hzero : s.activeBots.length = 0 <;>
    simp [hhalted, hzero, Nat.pos_iff_ne_zero]

theorem checkGrounded_eq_ok_iff :
    s.checkGrounded = .ok () ↔ (s.harmonics = .low → s.matrix.floatingCount = 0) := by
  rw [checkGrounded]
  by_cases hlow : s.harmonics = .low <;> by_cases hzero : s.matrix.floatingCount = 0 <;>
    simp [hlow, hzero, Nat.pos_iff_ne_zero]

theorem Seated.reserved_iff (h : s.Seated) :
    (∀ b ∈ s.activeBots, b.id.index ≠ 0) ↔ ∀ b, s.bots[0]? = some b → b.active = false := by
  constructor
  · intro hreserved b hb
    by_contra hactive
    have hmem : b ∈ s.activeBots :=
      mem_activeBots_iff_getElem?.2 ⟨⟨0, hb⟩, Bool.eq_true_of_not_eq_false hactive⟩
    exact hreserved b hmem (h.slot_id 0 b hb)
  · intro hidle b hb hzero
    obtain ⟨hslot, hactive⟩ := h.mem_activeBots.1 hb
    rw [bot?, hzero] at hslot
    exact Bool.false_ne_true ((hidle b hslot).symm.trans hactive)

theorem checkReservedSlot_eq_ok_iff (h : s.Seated) :
    s.checkReservedSlot = .ok () ↔ ∀ b ∈ s.activeBots, b.id.index ≠ 0 := by
  rw [h.reserved_iff, checkReservedSlot]
  cases s.bots[0]? with
  | none => simp
  | some b => cases hactive : b.active <;> simp [hactive]

/-! ## The whole check -/

theorem map_snd_heldSeeds : s.heldSeeds.map (·.2) = s.activeBots.flatMap (·.seeds) := by
  simp only [heldSeeds, List.map_flatMap, List.map_map, Function.comp_def, List.map_id']

theorem identifiers_perm : s.identifiers.Perm (s.activeIds ++ s.heldSeeds.map (·.2)) := by
  rw [map_snd_heldSeeds, activeIds]
  exact (List.map_append_flatMap_perm s.activeBots (·.id) (·.seeds)).symm

theorem mem_heldSeeds {x : BotId × BotId} :
    x ∈ s.heldSeeds ↔ ∃ b ∈ s.activeBots, x.1 = b.id ∧ x.2 ∈ b.seeds := by
  obtain ⟨holder, seed⟩ := x
  simp only [heldSeeds, List.mem_flatMap, List.mem_map, Prod.mk.injEq]
  constructor
  · rintro ⟨b, hb, y, hy, rfl, rfl⟩
    exact ⟨b, hb, rfl, hy⟩
  · rintro ⟨b, hb, rfl, hseed⟩
    exact ⟨b, hb, seed, hseed, rfl, rfl⟩

theorem checkHeldSeeds_eq_ok_iff (h : s.Seated) :
    checkSeeds s.activeIds s.heldSeeds = .ok () ↔
      (∀ b ∈ s.activeBots, ∀ x ∈ b.seeds, x.Valid) ∧ s.identifiers.Nodup := by
  rw [checkSeeds_eq_ok_iff, identifiers_perm.nodup_iff, List.nodup_append]
  constructor
  · rintro ⟨hvalid, hfree, hnodup⟩
    refine ⟨fun b hb x hx => hvalid (b.id, x) (mem_heldSeeds.2 ⟨b, hb, rfl, hx⟩),
      h.nodup_activeIds, hnodup, fun a ha c hc => ?_⟩
    obtain ⟨x, hx, rfl⟩ := List.mem_map.1 hc
    exact fun heq => hfree x hx (heq ▸ ha)
  · rintro ⟨hvalid, -, hnodup, hfree⟩
    refine ⟨fun x hx => ?_, fun x hx hmem => ?_, hnodup⟩
    · obtain ⟨b, hb, -, hseed⟩ := mem_heldSeeds.1 hx
      exact hvalid b hb x.2 hseed
    · exact hfree x.2 hmem x.2 (List.mem_map_of_mem hx) rfl

theorem checkSeated_eq_ok_iff :
    s.checkSlotCount = .ok () ∧ checkSlots 0 s.bots.toList = .ok () ↔ s.Seated := by
  have hcount : s.checkSlotCount = .ok () ↔ s.bots.size = botSlots := by
    rw [checkSlotCount]
    split <;> simp [*]
  rw [hcount, checkSlots_eq_ok_iff]
  simp only [Nat.zero_add, Array.getElem?_toList]
  exact ⟨fun h => ⟨h.1, h.2⟩, fun h => ⟨h.size, h.slot_id⟩⟩

theorem checkWellFormed_eq_ok_iff :
    s.checkWellFormed = .ok () ↔
      s.Coherent ∧ (s.harmonics = .low → s.matrix.floatingCount = 0) := by
  have hresolution : s.matrix.checkSameResolution s.target = .ok () ↔
      s.matrix.resolution = s.target.resolution := by
    rw [Matrix.checkSameResolution]
    split <;> simp [*]
  simp only [checkWellFormed, seq_eq_ok_iff, hresolution, checkPlaces_eq_ok_iff,
    checkActivity_eq_ok_iff, checkGrounded_eq_ok_iff]
  constructor
  · rintro ⟨hcount, hslots, hreserved, hres, ⟨hin, hvoid, -, hapart⟩, hseeds, hactivity, hground⟩
    have hseated := checkSeated_eq_ok_iff.1 ⟨hcount, hslots⟩
    obtain ⟨hvalid, hident⟩ := (checkHeldSeeds_eq_ok_iff hseated).1 hseeds
    exact ⟨⟨hseated, (checkReservedSlot_eq_ok_iff hseated).1 hreserved, hres, hin, hvoid, hapart,
      hvalid, hident, hactivity⟩, hground⟩
  · rintro ⟨h, hground⟩
    obtain ⟨hcount, hslots⟩ := checkSeated_eq_ok_iff.2 h.toSeated
    exact ⟨hcount, hslots, (checkReservedSlot_eq_ok_iff h.toSeated).2 h.reserved, h.resolution,
      ⟨h.inside, h.void, by simp, h.apart⟩,
      (checkHeldSeeds_eq_ok_iff h.toSeated).2 ⟨h.seeds, h.identifiers⟩, h.activity, hground⟩

/-! ## Consequences -/

namespace Arranged

variable {b b' : Bot} {x : BotId}

theorem valid_id (h : s.Arranged) (hb : b ∈ s.activeBots) : b.id.Valid := by
  have hlt := h.index_lt (h.bot?_of_mem hb)
  have hne := h.reserved b hb
  simp only [BotId.Valid, botSlots] at *
  omega

theorem eq_of_position_eq (h : s.Arranged) (hb : b ∈ s.activeBots) (hb' : b' ∈ s.activeBots)
    (hpos : b.position = b'.position) : b = b' :=
  List.inj_on_of_nodup_map h.apart hb hb' hpos

theorem mem_identifiers : x ∈ s.identifiers ↔ ∃ b ∈ s.activeBots, x = b.id ∨ x ∈ b.seeds := by
  simp only [State.identifiers, List.mem_flatMap, List.mem_cons]

theorem valid_of_mem (h : s.Arranged) (hx : x ∈ s.identifiers) : x.Valid := by
  obtain ⟨b, hb, rfl | hx⟩ := mem_identifiers.1 hx
  · exact h.valid_id hb
  · exact h.seeds b hb x hx

theorem disjoint_of_ne (h : s.Arranged) (hb : b ∈ s.activeBots) (hb' : b' ∈ s.activeBots)
    (hne : b ≠ b') : List.Disjoint (b.id :: b.seeds) (b'.id :: b'.seeds) := by
  have : Std.Symm (Function.onFun List.Disjoint fun b : Bot => b.id :: b.seeds) :=
    ⟨fun _ _ hab => List.Disjoint.symm hab⟩
  exact (List.nodup_flatMap.1 h.identifiers).2.forall hb hb' hne

theorem holder_unique (h : s.Arranged) (hb : b ∈ s.activeBots) (hb' : b' ∈ s.activeBots)
    (hx : x ∈ b.seeds) (hx' : x ∈ b'.seeds) : b = b' := by
  by_contra hne
  exact h.disjoint_of_ne hb hb' hne (List.mem_cons_of_mem _ hx) (List.mem_cons_of_mem _ hx')

theorem id_not_mem_seeds (h : s.Arranged) (hb : b ∈ s.activeBots) (hb' : b' ∈ s.activeBots) :
    b.id ∉ b'.seeds := by
  intro hmem
  by_cases heq : b = b'
  · subst heq
    exact (List.nodup_cons.1 ((List.nodup_flatMap.1 h.identifiers).1 b hb)).1 hmem
  · exact h.disjoint_of_ne hb hb' heq List.mem_cons_self (List.mem_cons_of_mem _ hmem)

theorem inactive_of_seed (h : s.Arranged) (hb : b ∈ s.activeBots) (hx : x ∈ b.seeds) :
    ∃ slot, s.bot? x = some slot ∧ slot.active = false := by
  have hvalid := h.seeds b hb x hx
  obtain ⟨slot, hslot⟩ := h.exists_bot? (k := x) (by
    simp only [BotId.Valid, botSlots] at *
    omega)
  refine ⟨slot, hslot, Bool.eq_false_iff.2 fun hactive => ?_⟩
  refine h.id_not_mem_seeds (h.mem_of_bot? hslot hactive) hb ?_
  rwa [h.id_eq hslot]

end Arranged

end State

end VoxelSwarm
