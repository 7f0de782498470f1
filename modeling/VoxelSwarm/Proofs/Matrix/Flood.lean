import Mathlib.Data.List.Pairwise
import VoxelSwarm.Matrix.Grounding
import VoxelSwarm.Proofs.Geometry.Boxes
import VoxelSwarm.Proofs.Geometry.Links
import VoxelSwarm.Proofs.Matrix.Consistent

/-!
# What a walk comes to

A walk through the full voxels of a grid comes to those that are linked to one of its seeds, to each
of them once (`mem_reached_sweep`), and starts afresh once in every component that has a seed
(`Flood.Swept`). So the grounded voxels are the full ones that a chain links to the ground plane
(`mem_grounded`).

The walk is `Sound` at any time. It is `Closed`, so that no chain leads out of it, once the voxels
that it has come to are expanded, and the fuel of `drain` lasts until then, for a list of distinct
voxels is no longer than the volume of the grid.
-/

namespace VoxelSwarm

abbrev Matrix.Full (m : Matrix) (p : Position) : Prop := m.get p = true

/-- A chain of full voxels leads to the voxel from the ground plane. -/
def Matrix.Grounded (m : Matrix) (q : Position) : Prop := ∃ p, p.y = 0 ∧ Linked m.Full p q

theorem Matrix.Full.holds {m : Matrix} {p : Position} (h : m.Full p) : m.Holds p := by
  by_contra hp
  exact nomatch (Matrix.get_eq_false hp).symm.trans h

theorem Position.nodup_push {found : Array Position} {p : Position} (hnodup : found.toList.Nodup)
    (hfresh : p ∉ found) : (found.push p).toList.Nodup := by
  rw [Array.toList_push]
  refine List.nodup_append.2 ⟨hnodup, List.nodup_singleton p, ?_⟩
  rintro q hq t ht rfl
  rw [List.mem_singleton.1 ht] at hq
  exact hfresh (Array.mem_toList_iff.1 hq)

theorem Position.length_le_volume {r : Nat} {ps : List Position} (hnodup : ps.Nodup)
    (hinside : ∀ p ∈ ps, p.Inside r) : ps.length ≤ Matrix.volume r := by
  have hpacks : (ps.map (Position.pack r)).Nodup :=
    hnodup.map_on fun p hp q hq => (Position.pack_inj (hinside p hp) (hinside q hq)).1
  have hsubset : ps.map (Position.pack r) ⊆ List.range (Matrix.volume r) := by
    intro i hi
    obtain ⟨p, hp, rfl⟩ := List.mem_map.1 hi
    exact List.mem_range.2 (Position.pack_lt (hinside p hp))
  simpa using (List.subperm_of_subset hpacks hsubset).length_le

namespace Flood

variable {m : Matrix} {walk walk' : Flood} {p q : Position} {seeds : List Position}

/-- The two records of a walk agree, and it has come to full voxels that are linked to where it
started. -/
structure Sound (m : Matrix) (walk : Flood) : Prop where
  resolution : walk.seen.resolution = m.resolution
  consistent : walk.seen.Consistent
  seen : ∀ p, walk.seen.get p = true ↔ p ∈ walk.reached
  nodup : walk.reached.toList.Nodup
  rooted : ∀ p ∈ walk.reached, ∃ s ∈ walk.starts, Linked m.Full s p

/-- The first walk goes on to be the second one, without a fresh start. -/
structure Leads (m : Matrix) (walk walk' : Flood) : Prop where
  sound : walk'.Sound m
  reached : walk.reached.toList <+: walk'.reached.toList
  starts : walk'.starts = walk.starts

/-- The first `n` voxels that the walk has come to are expanded. -/
def Expanded (m : Matrix) (walk : Flood) (n : Nat) : Prop :=
  ∀ i < n, ∀ p, walk.reached[i]? = some p → ∀ q, p.Touches q → m.Full q → q ∈ walk.reached

/-- All voxels that the walk has come to are expanded. -/
def Closed (m : Matrix) (walk : Flood) : Prop :=
  ∀ p ∈ walk.reached, ∀ q, p.Touches q → m.Full q → q ∈ walk.reached

theorem Closed.mem_of_linked (h : walk.Closed m) (hp : p ∈ walk.reached)
    (hlinked : Linked m.Full p q) : q ∈ walk.reached :=
  hlinked.keeps (· ∈ walk.reached) hp fun s t _ hs htouch ht => h s hs t htouch ht

theorem Expanded.closed {n : Nat} (h : walk.Expanded m n) (hn : walk.reached.size ≤ n) :
    walk.Closed m := by
  intro p hp
  obtain ⟨i, hi, rfl⟩ := Array.mem_iff_getElem.1 hp
  exact h i (by omega) _ (Array.getElem?_eq_getElem hi)

theorem Leads.trans {walk'' : Flood} (h : walk.Leads m walk') (h' : walk'.Leads m walk'') :
    walk.Leads m walk'' :=
  ⟨h'.sound, h.reached.trans h'.reached, h'.starts.trans h.starts⟩

theorem Leads.mem (h : walk.Leads m walk') (hp : p ∈ walk.reached) : p ∈ walk'.reached :=
  Array.mem_toList_iff.1 (h.reached.subset (Array.mem_toList_iff.2 hp))

theorem Leads.getElem? (h : walk.Leads m walk') {i : Nat} (hi : i < walk.reached.size) :
    walk'.reached[i]? = walk.reached[i]? := by
  have hget := List.prefix_iff_getElem?.1 h.reached i (by simpa using hi)
  rw [← Array.getElem?_toList, hget, Array.getElem_toList, Array.getElem?_eq_getElem hi]

namespace Sound

theorem full (h : walk.Sound m) (hp : p ∈ walk.reached) : m.Full p := by
  obtain ⟨s, -, hs⟩ := h.rooted p hp
  exact hs.right

theorem size_le (h : walk.Sound m) : walk.reached.size ≤ Matrix.volume m.resolution := by
  have := Position.length_le_volume h.nodup fun p hp => (h.full (Array.mem_toList_iff.1 hp)).holds
  simpa using this

theorem leads (h : walk.Sound m) : walk.Leads m walk := ⟨h, List.prefix_rfl, rfl⟩

theorem reach (h : walk.Sound m) (hfresh : p ∉ walk.reached)
    (hroot : ∃ s ∈ walk.starts, Linked m.Full s p) : (walk.reach p).Sound m where
  resolution := (Matrix.resolution_set ..).trans h.resolution
  consistent := h.consistent.set p true
  seen q := by
    obtain ⟨s, -, hs⟩ := hroot
    have hholds : walk.seen.Holds p := by
      rw [Matrix.Holds, h.resolution]
      exact hs.right.holds
    have hget := h.consistent.get_set hholds true q
    have hseen := h.seen q
    simp only [Flood.reach, Array.mem_push]
    rw [hget]
    split
    · next heq => simp [heq]
    · next hne => simp [hseen, Ne.symm hne]
  nodup := Position.nodup_push h.nodup hfresh
  rooted q hq := by
    rcases Array.mem_push.1 hq with hq | rfl
    · exact h.rooted q hq
    · exact hroot

/-! ## One voxel after another -/

theorem look (h : walk.Sound m) (hp : p ∈ walk.reached) (htouch : p.Touches q) :
    walk.Leads m (if m.get q && !walk.seen.get q then walk.reach q else walk) ∧
      (m.Full q → q ∈ (if m.get q && !walk.seen.get q then walk.reach q else walk).reached) := by
  split
  · next hnew =>
    simp only [Bool.and_eq_true, Bool.not_eq_true'] at hnew
    have hfresh : q ∉ walk.reached := fun hq => by
      rw [(h.seen q).2 hq] at hnew
      exact nomatch hnew.2
    obtain ⟨s, hs, hlinked⟩ := h.rooted p hp
    refine ⟨⟨h.reach hfresh ⟨s, hs, .step hlinked htouch hnew.1⟩, ?_, rfl⟩, fun _ => ?_⟩
    · simp [Flood.reach]
    · simp [Flood.reach]
  · next hnew =>
    refine ⟨h.leads, fun hq => (h.seen q).1 ?_⟩
    simpa [hq] using hnew

theorem expand (h : walk.Sound m) (hp : p ∈ walk.reached) :
    walk.Leads m (walk.expand m p) ∧
      ∀ q, p.Touches q → m.Full q → q ∈ (walk.expand m p).reached := by
  have hall : ∀ (qs : List Position) (walk : Flood), walk.Sound m → p ∈ walk.reached →
      (∀ q ∈ qs, p.Touches q) →
      let walk' := qs.foldl
        (fun walk q => if m.get q && !walk.seen.get q then walk.reach q else walk) walk
      walk.Leads m walk' ∧ ∀ q ∈ qs, m.Full q → q ∈ walk'.reached := by
    intro qs
    induction qs with
    | nil => exact fun walk h _ _ => ⟨h.leads, by simp⟩
    | cons q qs ih =>
      intro walk h hp htouch
      obtain ⟨hfirst, hq⟩ := h.look hp (htouch q List.mem_cons_self)
      obtain ⟨hrest, hqs⟩ := ih _ hfirst.sound (hfirst.mem hp)
        fun q hq => htouch q (List.mem_cons_of_mem _ hq)
      refine ⟨hfirst.trans hrest, fun t ht hfull => ?_⟩
      rcases List.mem_cons.1 ht with rfl | ht
      · exact hrest.mem (hq hfull)
      · exact hqs t ht hfull
  obtain ⟨hleads, hmem⟩ := hall (p.neighbors m.resolution) walk h hp
    fun q hq => (Position.mem_neighbors.1 hq).1
  exact ⟨hleads, fun q htouch hq => hmem q (Position.mem_neighbors.2 ⟨htouch, hq.holds⟩) hq⟩

/-- A walk comes to an end before its fuel does. -/
theorem drain (h : walk.Sound m) {fuel head : Nat} (hexpanded : walk.Expanded m head)
    (hfuel : Matrix.volume m.resolution ≤ head + fuel) :
    walk.Leads m (drain m fuel head walk) ∧ (Flood.drain m fuel head walk).Closed m := by
  induction fuel generalizing head walk with
  | zero =>
    have hsize := h.size_le
    exact ⟨h.leads, hexpanded.closed (by omega)⟩
  | succ fuel ih =>
    unfold Flood.drain
    split
    · next hnone =>
      exact ⟨h.leads, hexpanded.closed (Array.getElem?_eq_none_iff.1 hnone)⟩
    · next p hsome =>
      obtain ⟨hhead, hp⟩ := Array.getElem?_eq_some_iff.1 hsome
      obtain ⟨hleads, hneighbors⟩ := h.expand (p := p) (hp ▸ Array.getElem_mem hhead)
      have hnext : (walk.expand m p).Expanded m (head + 1) := by
        intro i hi t ht q htouch hq
        rw [hleads.getElem? (by omega)] at ht
        rcases Nat.lt_or_eq_of_le (Nat.le_of_lt_succ hi) with hlt | rfl
        · exact hleads.mem (hexpanded i hlt t ht q htouch hq)
        · obtain rfl : p = t := Option.some.inj (hsome.symm.trans ht)
          exact hneighbors q htouch hq
      obtain ⟨hrest, hclosed⟩ := ih hleads.sound hnext (by omega)
      exact ⟨hleads.trans hrest, hclosed⟩

end Sound

/-! ## From seed to seed -/

/-- The walk has come to the full ones among its seeds and to what they are linked to, with one
fresh start for each component. -/
structure Swept (m : Matrix) (seeds : List Position) (walk : Flood) : Prop where
  sound : walk.Sound m
  closed : walk.Closed m
  starts_subset : ∀ s ∈ walk.starts, s ∈ seeds
  starts_reached : ∀ s ∈ walk.starts, s ∈ walk.reached
  apart : walk.starts.toList.Pairwise fun s t => ¬Linked m.Full s t
  seeds_reached : ∀ s ∈ seeds, m.Full s → s ∈ walk.reached

theorem swept_start (m : Matrix) : (start m.resolution).Swept m [] where
  sound :=
    { resolution := rfl
      consistent := Matrix.Consistent.empty _
      seen := by simp [start]
      nodup := List.nodup_nil
      rooted := by simp [start] }
  closed := by simp [Closed, start]
  starts_subset := by simp [start]
  starts_reached := by simp [start]
  apart := List.Pairwise.nil
  seeds_reached := by simp

theorem Sound.afresh {seed : Position} (h : walk.Sound m) (hfull : m.Full seed)
    (hfresh : seed ∉ walk.reached) :
    Sound m { walk.reach seed with starts := walk.starts.push seed } := by
  have hnoted : Sound m { walk with starts := walk.starts.push seed } :=
    { h with
      rooted := fun p hp => by
        obtain ⟨s, hs, hlinked⟩ := h.rooted p hp
        exact ⟨s, Array.mem_push_of_mem _ hs, hlinked⟩ }
  exact hnoted.reach hfresh ⟨seed, Array.mem_push_self, .refl hfull⟩

theorem Swept.afresh {seed : Position} (h : walk.Swept m seeds) (hfresh : seed ∉ walk.reached)
    (hleads : Leads m { walk.reach seed with starts := walk.starts.push seed } walk')
    (hclosed : walk'.Closed m) : walk'.Swept m (seeds ++ [seed]) := by
  have hseed : seed ∈ walk'.reached := hleads.mem Array.mem_push_self
  have hearlier : ∀ p ∈ walk.reached, p ∈ walk'.reached :=
    fun p hp => hleads.mem (Array.mem_push_of_mem _ hp)
  have hstarts : walk'.starts = walk.starts.push seed := hleads.starts
  refine ⟨hleads.sound, hclosed, fun s hs => ?_, fun s hs => ?_, ?_, fun s hs hfull => ?_⟩
  · rw [hstarts] at hs
    rcases Array.mem_push.1 hs with hs | rfl
    · exact List.mem_append_left _ (h.starts_subset s hs)
    · simp
  · rw [hstarts] at hs
    rcases Array.mem_push.1 hs with hs | rfl
    · exact hearlier s (h.starts_reached s hs)
    · exact hseed
  · rw [hstarts, Array.toList_push]
    refine List.pairwise_append.2 ⟨h.apart, List.pairwise_singleton _ _, fun s hs t ht => ?_⟩
    rw [List.mem_singleton.1 ht]
    -- a closed walk does not lead to a voxel that it has not come to
    exact fun hlinked => hfresh
      (h.closed.mem_of_linked (h.starts_reached s (Array.mem_toList_iff.1 hs)) hlinked)
  · rcases List.mem_append.1 hs with hs | hs
    · exact hearlier s (h.seeds_reached s hs hfull)
    · rw [List.mem_singleton.1 hs]
      exact hseed

theorem Swept.startAt (h : walk.Swept m seeds) (seed : Position) :
    (walk.startAt m seed).Swept m (seeds ++ [seed]) := by
  unfold Flood.startAt
  split
  · next hnew =>
    simp only [Bool.and_eq_true, Bool.not_eq_true'] at hnew
    have hfresh : seed ∉ walk.reached := fun hseed => by
      rw [(h.sound.seen seed).2 hseed] at hnew
      exact nomatch hnew.2
    have hexpanded : Expanded m { walk.reach seed with starts := walk.starts.push seed }
        walk.reached.size := by
      intro i hi p hp q htouch hq
      simp only [Flood.reach, Array.getElem?_push, Nat.ne_of_lt hi, if_false] at hp
      exact Array.mem_push_of_mem _ (h.closed p (Array.mem_of_getElem? hp) q htouch hq)
    obtain ⟨hleads, hclosed⟩ :=
      (h.sound.afresh hnew.1 hfresh).drain hexpanded (Nat.le_add_left _ _)
    exact h.afresh hfresh hleads hclosed
  · next hold =>
    refine ⟨h.sound, h.closed, fun s hs => List.mem_append_left _ (h.starts_subset s hs),
      h.starts_reached, h.apart, fun s hs hfull => ?_⟩
    rcases List.mem_append.1 hs with hs | hs
    · exact h.seeds_reached s hs hfull
    · rw [List.mem_singleton.1 hs] at hfull ⊢
      exact (h.sound.seen seed).1 (by simpa [hfull] using hold)

end Flood

namespace Matrix

variable {m : Matrix} {p q : Position}

theorem swept_sweep (m : Matrix) (seeds : List Position) : (m.sweep seeds).Swept m seeds := by
  have hall : ∀ (rest earlier : List Position) (walk : Flood), walk.Swept m earlier →
      (rest.foldl (Flood.startAt m) walk).Swept m (earlier ++ rest) := by
    intro rest
    induction rest with
    | nil => exact fun earlier walk h => by simpa using h
    | cons seed rest ih => exact fun earlier walk h => by simpa using ih _ _ (h.startAt seed)
  exact hall seeds [] _ (Flood.swept_start m)

theorem mem_reached_sweep {seeds : List Position} :
    p ∈ (m.sweep seeds).reached ↔ ∃ s ∈ seeds, Linked m.Full s p := by
  have h := swept_sweep m seeds
  constructor
  · intro hp
    obtain ⟨s, hs, hlinked⟩ := h.sound.rooted p hp
    exact ⟨s, h.starts_subset s hs, hlinked⟩
  · rintro ⟨s, hs, hlinked⟩
    exact h.closed.mem_of_linked (h.seeds_reached s hs hlinked.left) hlinked

/-! ## Grounded voxels -/

theorem mem_groundPlane {r : Nat} (hp : p.Inside r) : p ∈ groundPlane r ↔ p.y = 0 := by
  simp only [groundPlane, Region.mem_grid, Region.mem_interval, List.mem_singleton]
  simp only [Position.Inside] at hp
  omega

theorem Consistent.get_of_fullCount_eq_zero (h : m.Consistent) (hcount : m.fullCount = 0)
    (p : Position) : m.get p = false := by
  by_contra hp
  have hfull : m.Full p := by simpa using hp
  have := h.fullCount_pos (pack_lt_volume hfull.holds) (get_eq_bit hfull.holds ▸ hfull)
  omega

theorem mem_grounded (h : m.Consistent) : p ∈ m.grounded ↔ m.Grounded p := by
  unfold grounded Grounded
  split
  · next hcount =>
    have hvoid : ¬m.Full p := by simp [h.get_of_fullCount_eq_zero hcount]
    constructor
    · intro hp
      simp at hp
    · rintro ⟨s, -, hlinked⟩
      exact absurd hlinked.right hvoid
  · rw [mem_reached_sweep]
    constructor
    · rintro ⟨s, hs, hlinked⟩
      exact ⟨s, (mem_groundPlane hlinked.left.holds).1 hs, hlinked⟩
    · rintro ⟨s, hs, hlinked⟩
      exact ⟨s, (mem_groundPlane hlinked.left.holds).2 hs, hlinked⟩

theorem nodup_grounded (m : Matrix) : m.grounded.toList.Nodup := by
  unfold grounded
  split
  · exact List.nodup_nil
  · exact (swept_sweep m _).sound.nodup

theorem Grounded.full (h : m.Grounded p) : m.Full p := by
  obtain ⟨s, -, hlinked⟩ := h
  exact hlinked.right

theorem Grounded.step (h : m.Grounded p) (htouch : p.Touches q) (hq : m.Full q) :
    m.Grounded q := by
  obtain ⟨s, hs, hlinked⟩ := h
  exact ⟨s, hs, .step hlinked htouch hq⟩

theorem Grounded.of_ground (hy : p.y = 0) (hp : m.Full p) : m.Grounded p := ⟨p, hy, .refl hp⟩

/-! ## Components -/

theorem mem_allVoxels {r : Nat} (hp : p.Inside r) : p ∈ allVoxels r :=
  List.mem_map.2 ⟨p.pack r, List.mem_range.2 (Position.pack_lt hp), Position.unpack_pack hp⟩

/-- There are as many components as there are voxels in a list with one from each of them. -/
theorem exists_representatives (m : Matrix) : ∃ reps : List Position,
    reps.length = m.componentCount ∧ (∀ s ∈ reps, m.Full s) ∧
      (reps.Pairwise fun s t => ¬Linked m.Full s t) ∧
      ∀ p, m.Full p → ∃ s ∈ reps, Linked m.Full s p := by
  have h := swept_sweep m (allVoxels m.resolution)
  refine ⟨(m.sweep (allVoxels m.resolution)).starts.toList, rfl, fun s hs => ?_, h.apart,
    fun p hp => ?_⟩
  · exact h.sound.full (h.starts_reached s (Array.mem_toList_iff.1 hs))
  · obtain ⟨s, hs, hlinked⟩ := h.sound.rooted p (h.seeds_reached p (mem_allVoxels hp.holds) hp)
    exact ⟨s, Array.mem_toList_iff.2 hs, hlinked⟩

/-- Members that are pairwise apart are fewer than others to which each of them is linked, when
two of the others are linked to each other. -/
theorem length_lt_of_linked {S : Position → Prop} {ps qs : List Position}
    (hapart : ps.Pairwise fun p p' => ¬Linked S p p') (hcover : ∀ p ∈ ps, ∃ q ∈ qs, Linked S p q)
    {q q' : Position} (hq : q ∈ qs) (hq' : q' ∈ qs) (hne : q ≠ q') (hlinked : Linked S q q') :
    ps.length < qs.length := by
  choose! f hf hpf using hcover
  have hnodup : (ps.map f).Nodup := by
    refine List.pairwise_map.2 (hapart.imp_of_mem fun hp hp' hnot heq => hnot ?_)
    exact (hpf _ hp).trans (heq ▸ (hpf _ hp').symm)
  -- no two members lead to `q` and to `q'`, so one of these is left over
  have hover : ∃ t ∈ qs, t ∉ ps.map f := by
    by_contra! hall
    obtain ⟨p, hp, rfl⟩ := List.mem_map.1 (hall q hq)
    obtain ⟨p', hp', rfl⟩ := List.mem_map.1 (hall q' hq')
    have : Std.Symm fun p p' => ¬Linked S p p' := ⟨fun _ _ hnot h => hnot h.symm⟩
    exact hapart.forall hp hp' (fun heq => hne (congrArg f heq))
      ((hpf p hp).trans (hlinked.trans (hpf p' hp').symm))
  obtain ⟨t, ht, hfresh⟩ := hover
  have hsubset : t :: ps.map f ⊆ qs := by
    refine List.cons_subset.2 ⟨ht, fun s hs => ?_⟩
    obtain ⟨p, hp, rfl⟩ := List.mem_map.1 hs
    exact hf p hp
  have hle := (List.subperm_of_subset (List.nodup_cons.2 ⟨hfresh, hnodup⟩) hsubset).length_le
  rwa [List.length_cons, List.length_map] at hle

/-- A matrix falls into more components without a voxel that holds two others together. -/
theorem componentCount_lt {m' : Matrix} {n n' : Position} (hless : ∀ q, m'.Full q → m.Full q)
    (hrest : ∀ q, m.Full q → q ≠ p → m'.Full q) (hn : m'.Full n) (hn' : m'.Full n')
    (hpn : Linked m.Full p n) (hpn' : Linked m.Full p n') (hapart : ¬Linked m'.Full n n') :
    m.componentCount < m'.componentCount := by
  obtain ⟨reps, hlength, hfull, hreps, -⟩ := m.exists_representatives
  obtain ⟨reps', hlength', -, -, hcover⟩ := m'.exists_representatives
  obtain ⟨s, hs, hsn⟩ := hcover n hn
  obtain ⟨s', hs', hsn'⟩ := hcover n' hn'
  have hsp : Linked m.Full s p := (hsn.mono hless).trans hpn.symm
  rw [← hlength, ← hlength']
  refine length_lt_of_linked hreps (fun t ht => ?_) hs hs' ?_
    (hsp.trans (hpn'.trans (hsn'.mono hless).symm))
  · by_cases htp : t = p
    · exact ⟨s, hs, htp ▸ hsp.symm⟩
    · obtain ⟨u, hu, hlinked⟩ := hcover t (hrest t (hfull t ht) htp)
      exact ⟨u, hu, hlinked.symm.mono hless⟩
  · rintro rfl
    exact hapart (hsn.symm.trans hsn')

end Matrix

end VoxelSwarm
