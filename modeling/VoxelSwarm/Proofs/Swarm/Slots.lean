import Mathlib.Algebra.BigOperators.Group.Multiset.Basic
import VoxelSwarm.Swarm.State

/-!
# The table of bots

When slot `i` holds bot `i` (`Seated`), a bot is found under its own identifier and the active bots
are told apart by theirs. `total` adds up a quantity over all slots; it moves by what the rewritten
slots gain (`total_rewrite`), which is how identifiers and active bots are counted over a step.
-/

namespace VoxelSwarm

namespace State

variable {s t : State} {b b' : Bot} {k : BotId}

/-! ## Looking up -/

theorem mem_activeBots_iff_getElem? :
    b ∈ s.activeBots ↔ (∃ i : Nat, s.bots[i]? = some b) ∧ b.active = true := by
  rw [activeBots, List.mem_filter, Array.mem_toList_iff, Array.mem_iff_getElem?]

/-- There are as many slots as identifiers, and slot `i` holds bot `i`. -/
structure Seated (s : State) : Prop where
  size : s.bots.size = botSlots
  slot_id : ∀ (i : Nat) (b : Bot), s.bots[i]? = some b → b.id.index = i

namespace Seated

theorem id_eq (h : s.Seated) (hb : s.bot? k = some b) : b.id = k :=
  BotId.index_inj.1 (h.slot_id _ _ hb)

theorem mem_activeBots (h : s.Seated) :
    b ∈ s.activeBots ↔ s.bot? b.id = some b ∧ b.active = true := by
  rw [mem_activeBots_iff_getElem?]
  constructor
  · rintro ⟨⟨i, hi⟩, hactive⟩
    have hslot : b.id.index = i := h.slot_id i b hi
    exact ⟨by rw [bot?, hslot, hi], hactive⟩
  · rintro ⟨hb, hactive⟩
    exact ⟨⟨_, hb⟩, hactive⟩

theorem bot?_of_mem (h : s.Seated) (hb : b ∈ s.activeBots) : s.bot? b.id = some b :=
  (h.mem_activeBots.1 hb).1

theorem mem_of_bot? (h : s.Seated) (hb : s.bot? k = some b) (hactive : b.active = true) :
    b ∈ s.activeBots := by
  rw [h.mem_activeBots, h.id_eq hb]
  exact ⟨hb, hactive⟩

theorem eq_of_id_eq (h : s.Seated) (hb : b ∈ s.activeBots) (hb' : b' ∈ s.activeBots)
    (hid : b.id = b'.id) : b = b' := by
  have hsome := h.bot?_of_mem hb
  rw [hid, h.bot?_of_mem hb'] at hsome
  exact (Option.some.inj hsome).symm

theorem positionOf_eq (h : s.Seated) (hb : b ∈ s.activeBots) : s.positionOf b.id = b.position := by
  rw [positionOf, h.bot?_of_mem hb]
  rfl

theorem index_lt (h : s.Seated) (hb : s.bot? k = some b) : k.index < botSlots := by
  rw [← h.size]
  exact (Array.getElem?_eq_some_iff.1 hb).1

theorem exists_getElem? (h : s.Seated) {i : Nat} (hi : i < botSlots) :
    ∃ b, s.bots[i]? = some b ∧ b.id.index = i := by
  rw [← h.size] at hi
  exact ⟨s.bots[i], Array.getElem?_eq_getElem hi, h.slot_id i _ (Array.getElem?_eq_getElem hi)⟩

theorem getElem?_eq_none (h : s.Seated) {i : Nat} (hi : botSlots ≤ i) : s.bots[i]? = none :=
  Array.getElem?_eq_none (h.size ▸ hi)

theorem exists_bot? (h : s.Seated) (hk : k.index < botSlots) : ∃ b, s.bot? k = some b := by
  obtain ⟨b, hb, -⟩ := h.exists_getElem? hk
  exact ⟨b, hb⟩

theorem map_index (h : s.Seated) : s.bots.toList.map (·.id.index) = List.range botSlots := by
  apply List.ext_getElem?
  intro i
  simp only [List.getElem?_map, Array.getElem?_toList]
  rcases Nat.lt_or_ge i botSlots with hi | hi
  · obtain ⟨b, hb, hid⟩ := h.exists_getElem? hi
    rw [hb, List.getElem?_range hi, Option.map_some, hid]
  · rw [h.getElem?_eq_none hi, List.getElem?_eq_none (by simpa using hi)]
    rfl

theorem nodup_map_id (h : s.Seated) : (s.bots.toList.map (·.id)).Nodup := by
  refine List.Nodup.of_map BotId.index ?_
  rw [List.map_map]
  exact h.map_index ▸ List.nodup_range

theorem ascending_activeBots (h : s.Seated) :
    s.activeBots.Pairwise fun b b' => b.id.index < b'.id.index := by
  have hrange : (s.bots.toList.map (·.id.index)).Pairwise (· < ·) :=
    h.map_index ▸ List.pairwise_lt_range
  exact (List.pairwise_map.1 hrange).sublist List.filter_sublist

theorem nodup_activeIds (h : s.Seated) : s.activeIds.Nodup :=
  h.nodup_map_id.sublist (List.filter_sublist.map _)

theorem nodup_activeBots (h : s.Seated) : s.activeBots.Nodup :=
  List.Nodup.of_map _ h.nodup_activeIds

theorem mem_activeIds (h : s.Seated) :
    k ∈ s.activeIds ↔ ∃ b, s.bot? k = some b ∧ b.active = true := by
  rw [activeIds, List.mem_map]
  constructor
  · rintro ⟨b, hb, rfl⟩
    exact ⟨b, h.mem_activeBots.1 hb⟩
  · rintro ⟨b, hb, hactive⟩
    exact ⟨b, h.mem_of_bot? hb hactive, h.id_eq hb⟩

theorem updateBot (h : s.Seated) (id : BotId) (change : Bot → Bot)
    (hchange : ∀ b, s.bot? id = some b → (change b).id = id) : (s.updateBot id change).Seated where
  size := by rw [State.updateBot, Array.size_modify, h.size]
  slot_id i b hb := by
    rw [State.updateBot, Array.getElem?_modify] at hb
    split at hb
    · next hi =>
      obtain ⟨old, hold, rfl⟩ := Option.map_eq_some_iff.1 hb
      rw [hchange old (by rw [bot?, hi, hold]), hi]
    · exact h.slot_id i b hb

end Seated

theorem Seated.bots_ext (hs : s.Seated) (ht : t.Seated) (h : ∀ k, s.bot? k = t.bot? k) :
    s.bots = t.bots := by
  apply Array.ext (by rw [hs.size, ht.size])
  intro i hi hi'
  have hsome : s.bots[i]? = some s.bots[i] := Array.getElem?_eq_getElem hi
  have hindex := hs.slot_id i _ hsome
  have hslot := h (s.bots[i]).id
  rw [bot?, bot?, hindex, hsome, Array.getElem?_eq_getElem hi'] at hslot
  exact Option.some.inj hslot

/-! ## Adding up over the slots -/

section Total

variable {M : Type} [AddCommMonoid M]

/-- A quantity added up over all slots. -/
def total (s : State) (g : Bot → M) : M := (s.bots.toList.map g).sum

theorem sum_map_modify (g : Bot → M) (change : Bot → Bot) :
    ∀ (l : List Bot) (i : Nat) (b : Bot), l[i]? = some b →
      ((l.modify i change).map g).sum + g b = (l.map g).sum + g (change b) := by
  intro l
  induction l with
  | nil => intro i b h; simp at h
  | cons x l ih =>
    intro i b h
    cases i with
    | zero =>
      obtain rfl : x = b := by simpa using h
      simp only [List.modify_zero_cons, List.map_cons, List.sum_cons]
      rw [add_right_comm, add_comm (g (change x)), add_right_comm, add_right_comm]
    | succ i =>
      rw [List.modify_succ_cons, List.map_cons, List.sum_cons, List.map_cons, List.sum_cons,
        add_assoc, ih i b (by simpa using h), add_assoc]

theorem total_updateBot (g : Bot → M) (change : Bot → Bot) (hb : s.bot? k = some b) :
    (s.updateBot k change).total g + g b = s.total g + g (change b) := by
  simp only [total, updateBot, Array.toList_modify]
  refine sum_map_modify g change _ _ b ?_
  rwa [Array.getElem?_toList]

/-- Rewriting some slots moves a total by what these slots gain. -/
theorem total_rewrite (g : Bot → M) (before : Bot → Bot) (l : List Bot) :
    ∀ {s : State}, s.Seated → t.Seated → (l.map (·.id)).Nodup →
      (∀ b ∈ l, s.bot? b.id = some (before b)) → (∀ b ∈ l, t.bot? b.id = some b) →
      (∀ k, (∀ b ∈ l, b.id ≠ k) → t.bot? k = s.bot? k) →
      t.total g + (l.map fun b => g (before b)).sum = s.total g + (l.map g).sum := by
  induction l with
  | nil =>
    intro s hs ht _ _ _ hsame
    have hbots : t.bots = s.bots := ht.bots_ext hs fun k => hsame k (by simp)
    simp [total, hbots]
  | cons x l ih =>
    intro s hs ht hnodup hbefore hafter hsame
    rw [List.map_cons, List.nodup_cons] at hnodup
    have hne : ∀ b ∈ l, x.id ≠ b.id := fun b hb heq => hnodup.1 (heq ▸ List.mem_map_of_mem hb)
    have hx := hbefore x List.mem_cons_self
    -- the first slot is rewritten on its own, the others by induction
    have hfirst := total_updateBot (s := s) g (fun _ => x) hx
    have hrest := ih (s := s.updateBot x.id fun _ => x) (hs.updateBot _ _ fun _ _ => rfl) ht
      hnodup.2 (fun b hb => ?_) (fun b hb => hafter b (List.mem_cons_of_mem _ hb)) (fun k hk => ?_)
    · simp only [List.map_cons, List.sum_cons]
      rw [add_comm (g (before x)), ← add_assoc, hrest, add_right_comm, hfirst, add_assoc]
    · rw [bot?_updateBot, if_neg (hne b hb)]
      exact hbefore b (List.mem_cons_of_mem _ hb)
    · rw [bot?_updateBot]
      split
      · next hxk => rw [← hxk, hafter x List.mem_cons_self, hx]; rfl
      · next hxk =>
        refine hsame k fun b hb => ?_
        rcases List.mem_cons.1 hb with rfl | hb
        · exact hxk
        · exact hk b hb

end Total

end State

end VoxelSwarm
