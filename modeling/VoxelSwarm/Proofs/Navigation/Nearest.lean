import VoxelSwarm.Proofs.Geometry.Order
import VoxelSwarm.Proofs.Navigation.Search

/-!
# The nearest of several targets

A search for several targets puts them in order, drops repeated ones and then asks of each voxel it
finds whether it is listed, by halving what is left of the list. What it asks is whether the voxel
is a target (`Position.listedIn_ascending`), so neither the order of the targets nor how often each
one comes makes a difference, and those outside the grid play no part
(`Navigator.routeToNearest_exact`). The first target found is a nearest one because the search finds
voxels in the order of their distance (`Route.Shortest`).
-/

namespace VoxelSwarm

/-! ## Lists without repetitions in a row -/

section EraseReps

variable {α : Type} [BEq α] {x : α}

theorem eraseRepsBy_loop (a : α) (xs before : List α) :
    List.eraseRepsBy.loop (· == ·) a xs before =
      before.reverse ++ List.eraseRepsBy.loop (· == ·) a xs [] := by
  induction xs generalizing a before with
  | nil => simp [List.eraseRepsBy.loop]
  | cons b xs ih =>
    simp only [List.eraseRepsBy.loop]
    split
    · exact ih a before
    · rw [ih b (a :: before), ih b [a]]
      simp

theorem eraseReps_cons_cons (a b : α) (xs : List α) :
    (a :: b :: xs).eraseReps =
      if a == b then (a :: xs).eraseReps else a :: (b :: xs).eraseReps := by
  simp only [List.eraseReps, List.eraseRepsBy, List.eraseRepsBy.loop]
  split
  · next heq => rw [if_pos heq]
  · next hne =>
    rw [if_neg (by simp [hne]), eraseRepsBy_loop b xs [a]]
    rfl

theorem eraseReps_sublist : ∀ xs : List α, xs.eraseReps.Sublist xs
  | [] => List.Sublist.refl _
  | [_] => List.Sublist.refl _
  | a :: b :: xs => by
    rw [eraseReps_cons_cons]
    split
    · exact (eraseReps_sublist (a :: xs)).trans ((List.sublist_cons_self b xs).cons_cons a)
    · exact (eraseReps_sublist (b :: xs)).cons_cons a

theorem mem_eraseReps [LawfulBEq α] : ∀ {xs : List α}, x ∈ xs.eraseReps ↔ x ∈ xs
  | [] => Iff.rfl
  | [_] => Iff.rfl
  | a :: b :: xs => by
    rw [eraseReps_cons_cons]
    split
    · next heq =>
      rw [mem_eraseReps, beq_iff_eq.1 heq]
      simp
    · rw [List.mem_cons, mem_eraseReps, List.mem_cons (a := x) (b := a)]

end EraseReps

/-! ## Targets in order -/

namespace Position

variable {p : Position} {ps : List Position} {table : Array Position}

theorem binSearchAux_iff (hsorted : table.toList.Pairwise fun p q => ¬q < p)
    {lo : Fin (table.size + 1)} {hi : Fin table.size} (h : lo.1 ≤ hi.1) :
    Array.binSearchAux (fun q q' => decide (q < q')) Option.isSome table p lo hi h = true ↔
      ∃ i : Nat, lo.1 ≤ i ∧ i ≤ hi.1 ∧ table[i]? = some p := by
  have hle : ∀ (i j : Nat) q q', i ≤ j → table[i]? = some q → table[j]? = some q' → ¬q' < q := by
    intro i j q q' hij hq hq'
    obtain ⟨hi, rfl⟩ := Array.getElem?_eq_some_iff.1 hq
    obtain ⟨hj, rfl⟩ := Array.getElem?_eq_some_iff.1 hq'
    rcases Nat.lt_or_eq_of_le hij with hlt | rfl
    · exact List.pairwise_iff_getElem.1 hsorted i j (by simpa using hi) (by simpa using hj) hlt
    · exact not_lt_self _
  fun_induction Array.binSearchAux (fun q q' : Position => decide (q < q')) Option.isSome table p
    lo hi h with
  | case1 lo hi h m a hbefore hnext _ ih =>
    have hright : ∀ i : Nat, table[i]? = some p → m < i := fun i hp =>
      Nat.lt_of_not_le fun him => hle i m p a him hp (Array.getElem?_eq_getElem _)
        (of_decide_eq_true hbefore)
    refine ih.trans (exists_congr fun i => ?_)
    constructor
    · rintro ⟨hlo, hhi, hp⟩
      exact ⟨by simp only at hlo; omega, hhi, hp⟩
    · rintro ⟨-, hhi, hp⟩
      exact ⟨hright i hp, hhi, hp⟩
  | case2 lo hi h m a hbefore hlast _ =>
    refine iff_of_false Bool.false_ne_true ?_
    rintro ⟨i, -, hhi, hp⟩
    exact hle i m p a (by omega) hp (Array.getElem?_eq_getElem _) (of_decide_eq_true hbefore)
  | case3 lo hi h m a _ hafter hfirst _ =>
    refine iff_of_false Bool.false_ne_true ?_
    rintro ⟨i, hlo, -, hp⟩
    exact hle m i a p (by omega) (Array.getElem?_eq_getElem _) hp (of_decide_eq_true hafter)
  | case4 lo hi h m a _ hafter hnext _ ih =>
    have hleft : ∀ i : Nat, table[i]? = some p → i < m := fun i hp =>
      Nat.lt_of_not_le fun hmi => hle m i a p hmi (Array.getElem?_eq_getElem _) hp
        (of_decide_eq_true hafter)
    refine ih.trans (exists_congr fun i => ?_)
    constructor
    · rintro ⟨hlo, hhi, hp⟩
      exact ⟨hlo, by simp only at hhi; omega, hp⟩
    · rintro ⟨hlo, -, hp⟩
      exact ⟨hlo, Nat.le_sub_one_of_lt (hleft i hp), hp⟩
  | case5 lo hi h m a hbefore hafter _ =>
    have ha : a = p := eq_of_not_lt (of_decide_eq_false (Bool.eq_false_iff.2 hafter))
      (of_decide_eq_false (Bool.eq_false_iff.2 hbefore))
    refine iff_of_true rfl ⟨m, by omega, by omega, ?_⟩
    rw [← ha]
    exact Array.getElem?_eq_getElem _

theorem listedIn_iff (hsorted : table.toList.Pairwise fun p q => ¬q < p) :
    p.listedIn table = true ↔ p ∈ table := by
  rw [listedIn, Array.binSearchContains, Array.mem_iff_getElem?]
  split
  · next hsize =>
    have hlast : table.size - 1 < table.size := Nat.sub_one_lt_of_lt hsize
    simp only [hlast, if_true, Nat.zero_le, dif_pos]
    refine (binSearchAux_iff hsorted _).trans (exists_congr fun i => ?_)
    refine ⟨fun h => h.2.2, fun hp => ⟨Nat.zero_le i, ?_, hp⟩⟩
    exact Nat.le_sub_one_of_lt (Array.getElem?_eq_some_iff.1 hp).1
  · next hsize =>
    refine iff_of_false Bool.false_ne_true ?_
    rintro ⟨i, hp⟩
    exact hsize (Nat.zero_lt_of_lt (Array.getElem?_eq_some_iff.1 hp).1)

theorem listedIn_ascending : p.listedIn (ascending ps) = ps.contains p := by
  have hsorted : (ascending ps).toList.Pairwise fun p q => ¬q < p :=
    (pairwise_mergeSort ps).sublist (eraseReps_sublist _)
  rw [Bool.eq_iff_iff, listedIn_iff hsorted, List.contains_iff_mem, ascending, List.mem_toArray,
    mem_eraseReps, List.mem_mergeSort]

end Position

/-! ## Routes -/

/-- The route leads to a target inside the grid by legal moves, and no sequence of legal moves to
any of the targets is shorter. -/
structure Route.Nearest (m : Matrix) (start : Position) (targets : List Position) (route : Route) :
    Prop where
  target : route.destination ∈ targets
  inside : m.Holds route.destination
  legal : m.Moves start route.commands route.destination
  least : ∀ q ∈ targets, ∀ cs, m.Moves start cs q → route.commands.length ≤ cs.length

namespace Navigator

variable {m : Matrix} {start : Position} {targets targets' : List Position}

theorem routeToNearest_eq (n : Navigator) (m : Matrix) (start : Position)
    (targets : List Position) :
    n.routeToNearest m start targets =
      if (targets.filter fun p => m.Holds p).isEmpty then (none, n)
      else Id.run (n.shortestRoute m start fun p =>
        pure ((targets.filter fun p => m.Holds p).contains p)) := by
  simp only [routeToNearest, Position.listedIn_ascending]

/-- What a search for several targets finds: a shortest route to one of them, or nothing because
none of them can be reached. -/
theorem routeToNearest_cases (n : Navigator) (hr : m.resolution ≤ 250) (hstart : m.Void start)
    (targets : List Position) :
    (∃ route, (n.routeToNearest m start targets).1 = some route ∧
      route.Shortest m start fun p => (targets.filter fun p => m.Holds p).contains p) ∨
    (n.routeToNearest m start targets).1 = none ∧
      ∀ q, Linked m.Void start q → q ∉ targets := by
  have hinside : ∀ q, Linked m.Void start q → q ∈ targets →
      q ∈ targets.filter fun p => m.Holds p := by
    intro q hlinked hq
    exact List.mem_filter.2 ⟨hq, decide_eq_true hlinked.right.holds⟩
  rw [routeToNearest_eq]
  by_cases hempty : (targets.filter fun p => m.Holds p).isEmpty = true
  · rw [if_pos hempty]
    refine Or.inr ⟨rfl, fun q hlinked hq => ?_⟩
    have hmem := hinside q hlinked hq
    rw [List.isEmpty_iff.1 hempty] at hmem
    exact List.not_mem_nil hmem
  · rw [if_neg hempty]
    rcases n.shortestRoute_cases hr hstart fun p =>
      (targets.filter fun p => m.Holds p).contains p with hfound | ⟨hnone, hall⟩
    · exact Or.inl hfound
    · refine Or.inr ⟨hnone, fun q hlinked hq => ?_⟩
      have hpasses := List.contains_iff_mem.2 (hinside q hlinked hq)
      exact nomatch (hall q hlinked).symm.trans hpasses

theorem shortestRoute_fst_eq (n n' : Navigator) (m : Matrix) (start : Position)
    (g : Position → Bool) :
    (Id.run (n.shortestRoute m start fun p => pure (g p))).1 =
      (Id.run (n'.shortestRoute m start fun p => pure (g p))).1 := by
  by_cases hstart : m.Holds start
  · rw [run_shortestRoute n g hstart, run_shortestRoute n' g hstart, n.prepare_eq, n'.prepare_eq]
    split <;> rfl
  · unfold shortestRoute
    rw [if_pos hstart, if_pos hstart]
    rfl

theorem nearest_of_shortest {route : Route}
    (h : route.Shortest m start fun p => (targets.filter fun p => m.Holds p).contains p)
    (hstart : m.Void start) : route.Nearest m start targets := by
  have hgoal := List.mem_filter.1 (List.contains_iff_mem.1 h.goal)
  refine ⟨hgoal.1, of_decide_eq_true hgoal.2, h.legal, fun q hq cs hcs => ?_⟩
  have hinside : m.Holds q := (hcs.linked hstart).right.holds
  exact h.least cs q hcs
    (List.contains_iff_mem.2 (List.mem_filter.2 ⟨hq, decide_eq_true hinside⟩))

theorem routeToNearest_congr (n n' : Navigator)
    (hsame : ∀ p, m.Holds p → (p ∈ targets ↔ p ∈ targets')) :
    (n.routeToNearest m start targets).1 = (n'.routeToNearest m start targets').1 := by
  have hinside : ∀ p, p ∈ (targets.filter fun p => m.Holds p) ↔
      p ∈ targets'.filter fun p => m.Holds p := by
    intro p
    simp only [List.mem_filter, decide_eq_true_eq]
    exact and_congr_left fun hp => hsame p hp
  have hcontains : ∀ p, (targets.filter fun p => m.Holds p).contains p =
      (targets'.filter fun p => m.Holds p).contains p := by
    intro p
    rw [Bool.eq_iff_iff, List.contains_iff_mem, List.contains_iff_mem, hinside]
  have hempty : (targets.filter fun p => m.Holds p).isEmpty =
      (targets'.filter fun p => m.Holds p).isEmpty := by
    rw [Bool.eq_iff_iff]
    simp only [List.isEmpty_iff, List.eq_nil_iff_forall_not_mem, hinside]
  rw [routeToNearest_eq, routeToNearest_eq, hempty]
  simp only [hcontains]
  split
  · rfl
  · exact n.shortestRoute_fst_eq n' m start _

/-- Lists of targets that have the same positions inside the grid give the same route, whatever the
navigators have been used for. There is none just when no chain of void voxels leads to one of these
positions, and otherwise it is a route to one that no other is nearer than. -/
theorem routeToNearest_exact (n n' : Navigator) (hr : m.resolution ≤ 250)
    (hsame : ∀ p, m.Holds p → (p ∈ targets ↔ p ∈ targets')) :
    (n.routeToNearest m start targets).1 = (n'.routeToNearest m start targets').1 ∧
      (m.Void start →
        ((n.routeToNearest m start targets).1 = none ↔
          ∀ p ∈ targets, m.Holds p → ¬Linked m.Void start p) ∧
        ∀ route, (n.routeToNearest m start targets).1 = some route →
          route.Nearest m start targets) := by
  refine ⟨n.routeToNearest_congr n' hsame, fun hstart => ?_⟩
  rcases n.routeToNearest_cases hr hstart targets with ⟨found, hfound, hshortest⟩ | ⟨hnone, hall⟩
  · have hnearest := nearest_of_shortest hshortest hstart
    refine ⟨iff_of_false (by simp [hfound]) fun hall => ?_, fun route hroute => ?_⟩
    · exact hall _ hnearest.target hnearest.inside (hnearest.legal.linked hstart)
    · rw [← Option.some.inj (hfound.symm.trans hroute)]
      exact hnearest
  · refine ⟨iff_of_true hnone fun p hp _ hlinked => hall p hlinked hp, fun route hroute => ?_⟩
    exact nomatch hnone.symm.trans hroute

def scattered : List Position := [⟨2, 2, 2⟩, ⟨1, 1, 0⟩, ⟨9, 0, 0⟩, ⟨2, 2, 2⟩]

theorem routeToNearest_exact_scattered :
    (Matrix.empty 3).resolution ≤ 250 ∧
      (∀ p, (Matrix.empty 3).Holds p → (p ∈ scattered ↔ p ∈ [⟨1, 1, 0⟩, ⟨2, 2, 2⟩])) ∧
      (Matrix.empty 3).Void Position.origin ∧
      ∃ route,
        (used.routeToNearest (Matrix.empty 3) Position.origin scattered).1 = some route ∧
        (routeToNearest {} (Matrix.empty 3) Position.origin [⟨1, 1, 0⟩, ⟨2, 2, 2⟩]).1 =
          some route ∧
        route.Nearest (Matrix.empty 3) Position.origin scattered := by
  have hr : (Matrix.empty 3).resolution ≤ 250 := by decide
  have hsame : ∀ p, (Matrix.empty 3).Holds p →
      (p ∈ scattered ↔ p ∈ [⟨1, 1, 0⟩, ⟨2, 2, 2⟩]) := by
    intro p hp
    have hfar : p ≠ ⟨9, 0, 0⟩ := by
      rintro rfl
      exact absurd hp (by decide)
    simp only [scattered, List.mem_cons, List.not_mem_nil, or_false, hfar, false_or]
    tauto
  have hstart : (Matrix.empty 3).Void Position.origin := by decide +kernel
  have hside : Linked (Matrix.empty 3).Void Position.origin ⟨1, 0, 0⟩ :=
    .of_touches hstart (by decide) (by decide +kernel)
  have hcorner : Linked (Matrix.empty 3).Void Position.origin ⟨1, 1, 0⟩ :=
    .step hside (by decide) (by decide +kernel)
  obtain ⟨heq, hexact⟩ :=
    @routeToNearest_exact (Matrix.empty 3) Position.origin _ _ used {} hr hsame
  obtain ⟨hnone, hnearest⟩ := hexact hstart
  cases hroute : (used.routeToNearest (Matrix.empty 3) Position.origin scattered).1 with
  | none => exact absurd hcorner (hnone.1 hroute _ (by simp [scattered]) (by decide))
  | some route =>
    exact ⟨hr, hsame, hstart, route, rfl, heq.symm.trans hroute, hnearest route hroute⟩

end Navigator

end VoxelSwarm
