import VoxelSwarm.Proofs.Step.Conservation

/-!
# The order of seeds

Bots are made with their seeds in order and sort them again when they take in another one, while
splitting off takes the first ones away. So a bot that has sorted its seeds once keeps them in
ascending order, and hands out the lowest identifiers that it holds (`Bot.lowest_of_handOver`).

Nothing looks at the order of seeds that come from elsewhere. What steps make of any state is said
by `SeedsFrom`: every active bot has its seeds in ascending order, or it holds the last ones of the
list that it held in that state.
-/

namespace VoxelSwarm

namespace Bot

def Ascending (b : Bot) : Prop := b.seeds.Pairwise fun x y => x.index < y.index

instance (b : Bot) : Decidable b.Ascending :=
  inferInstanceAs (Decidable (b.seeds.Pairwise fun x y => x.index < y.index))

variable {b b' : Bot}

theorem pairwise_sortSeeds (seeds : List BotId) :
    (sortSeeds seeds).Pairwise fun x y => x.index ≤ y.index := by
  refine (List.pairwise_mergeSort (fun x y z hxy hyz => ?_) (fun x y => ?_) seeds).imp
    fun {x y} hxy => by simpa [BotId.le] using hxy
  · simp only [BotId.le, decide_eq_true_eq] at *
    omega
  · simp only [BotId.le, Bool.or_eq_true, decide_eq_true_eq]
    omega

theorem ascending_of_sorted {seeds : List BotId} (hsorted : b.seeds = sortSeeds seeds)
    (hnodup : b.seeds.Nodup) : b.Ascending := by
  have hle : b.seeds.Pairwise fun x y => x.index ≤ y.index := by
    rw [hsorted]
    exact pairwise_sortSeeds seeds
  refine (hle.and hnodup).imp fun {x y} h => ?_
  have hne : x.index ≠ y.index := fun heq => h.2 (BotId.index_inj.1 heq)
  exact Nat.lt_of_le_of_ne h.1 hne

theorem Ascending.of_suffix (h : b'.Ascending) (hsuffix : b.seeds <:+ b'.seeds) : b.Ascending :=
  List.Pairwise.sublist hsuffix.sublist h

/-- Seeds that ascend are handed out from the lowest one on: the new bot gets the lowest as its
identifier and the ones after it as its seeds, and all that stay are greater. -/
theorem lowest_of_handOver {m : Nat} {child : BotId} {seeds : List BotId} (h : b.Ascending)
    (hsplit : b.handOver m = some (child, seeds, b')) :
    b.seeds = child :: seeds ++ b'.seeds ∧ seeds.length = m ∧
      (∀ x ∈ seeds, child.index < x.index) ∧
      ∀ x ∈ child :: seeds, ∀ y ∈ b'.seeds, x.index < y.index := by
  unfold handOver at hsplit
  split at hsplit
  · cases hsplit
  · next first rest hseeds =>
    split at hsplit
    · cases hsplit
    · next hlength =>
      obtain ⟨rfl, rfl, rfl⟩ : first = child ∧ rest.take m = seeds ∧
          { b with seeds := rest.drop m } = b' := by simpa using hsplit
      have hall : b.seeds = (first :: rest.take m) ++ rest.drop m := by
        rw [hseeds, List.cons_append, List.take_append_drop]
      rw [Ascending, hall] at h
      have hpairs := List.pairwise_append.1 h
      refine ⟨hall, List.length_take_of_le (Nat.not_lt.1 hlength), ?_, hpairs.2.2⟩
      exact (List.pairwise_cons.1 hpairs.1).1

end Bot

namespace State

variable {s t u : State} {rules : Rules} {plan : Plan} {b x : Bot}

/-- All active bots have their seeds in ascending order. -/
def SeedsAscend (s : State) : Prop := ∀ b ∈ s.activeBots, b.Ascending

instance (s : State) : Decidable s.SeedsAscend :=
  inferInstanceAs (Decidable (∀ b ∈ s.activeBots, b.Ascending))

/-- All active bots of `t` have their seeds in ascending order but for some that were active in `s`:
these hold the last ones of the seeds that they held there. -/
def SeedsFrom (s t : State) : Prop :=
  ∀ b ∈ t.activeBots, b.Ascending ∨ ∃ b₀ ∈ s.activeBots, b₀.id = b.id ∧ b.seeds <:+ b₀.seeds

theorem SeedsFrom.refl (s : State) : s.SeedsFrom s :=
  fun b hb => .inr ⟨b, hb, rfl, List.suffix_rfl⟩

theorem SeedsFrom.trans (h : s.SeedsFrom t) (h' : t.SeedsFrom u) : s.SeedsFrom u := by
  intro b hb
  rcases h' b hb with hascending | ⟨b₁, hb₁, hid₁, hsuffix₁⟩
  · exact .inl hascending
  · rcases h b₁ hb₁ with hascending | ⟨b₀, hb₀, hid₀, hsuffix₀⟩
    · exact .inl (hascending.of_suffix hsuffix₁)
    · exact .inr ⟨b₀, hb₀, hid₀.trans hid₁, hsuffix₁.trans hsuffix₀⟩

theorem SeedsFrom.seedsAscend (h : s.SeedsFrom t) (hs : s.SeedsAscend) : t.SeedsAscend := by
  intro b hb
  rcases h b hb with hascending | ⟨b₀, hb₀, -, hsuffix⟩
  · exact hascending
  · exact (hs b₀ hb₀).of_suffix hsuffix

/-! ## Steps -/

/-- A bot that a turn leaves active has sorted its seeds, or it holds the last ones of those that it
held before. -/
theorem Rewrites.seeds_cases {l : List Bot} (h : s.Rewrites plan b l) (hx : x ∈ l)
    (hactive : x.active = true) :
    (∃ seeds, x.seeds = Bot.sortSeeds seeds) ∨ b.id = x.id ∧ x.seeds <:+ b.seeds := by
  cases h with
  | stands c y _ _ hid hseeds =>
    obtain rfl := List.mem_singleton.1 hx
    exact .inr ⟨hid.symm, hseeds ▸ List.suffix_rfl⟩
  | halts =>
    obtain rfl := List.mem_singleton.1 hx
    cases hactive
  | absorbs nd c =>
    rcases List.mem_cons.1 hx with rfl | hx
    · exact .inl ⟨_, rfl⟩
    · obtain rfl := List.mem_singleton.1 hx
      cases hactive
  | absorbed => cases hx
  | splits nd m child rest _ hseeds =>
    rcases List.mem_cons.1 hx with rfl | hx
    · refine .inr ⟨rfl, ?_⟩
      rw [hseeds]
      exact (List.drop_suffix m.toNat rest).trans (List.suffix_cons child rest)
    · obtain rfl := List.mem_singleton.1 hx
      exact .inl ⟨_, rfl⟩

theorem Arranged.nodup_seeds (h : s.Arranged) (hb : b ∈ s.activeBots) : b.seeds.Nodup :=
  (List.nodup_cons.1 ((List.nodup_flatMap.1 h.identifiers).1 b hb)).2

theorem Orderly.seedsFrom_executeAll (h : s.Orderly) (hl : s.Legal rules plan) :
    s.SeedsFrom (s.executeAll plan s.activeIds).1 := by
  obtain ⟨base, changed, hmid⟩ := h.midway hl
  have hafter := h.executeAll hl
  intro x hx
  have hslots := ((alike_hollow s).executeAll plan s.activeIds).activeBots
  obtain ⟨hactive, b, hb, hmem⟩ :=
    (hmid.mem_activeBots_iff hl.hollow (Coherent.arranged h)).1 (hslots ▸ hx)
  have hturn := hl.hollow.rewrites (Coherent.arranged h) hb
  rcases hturn.seeds_cases hmem hactive with ⟨seeds, hsorted⟩ | ⟨hid, hsuffix⟩
  · exact .inl (Bot.ascending_of_sorted hsorted (hafter.arranged.nodup_seeds hx))
  · exact .inr ⟨b, hb, hid, hsuffix⟩

theorem seedsAscend_of_initial {source target : Option Matrix} (h : initial source target = .ok s) :
    s.SeedsAscend := by
  obtain ⟨m, m', rfl⟩ := exists_start_of_initial h
  rw [SeedsAscend, activeBots_start]
  decide +kernel

end State

end VoxelSwarm
