import Mathlib.Logic.Function.Basic
import VoxelSwarm.Navigation.Search
import VoxelSwarm.Proofs.Matrix.Flood
import VoxelSwarm.Proofs.Navigation.Moves

/-!
# Shortest routes are found

`Navigator.shortestRoute_exact` says that a search finds a route just when a chain of void voxels
leads to one that passes the test, that no sequence of moves to such a voxel is shorter, and that
what the navigator was used for before does not matter.

The invariant is `Search.Explored`. It gives every voxel that has been found a depth, the number of
moves on the way that the table holds, which never decreases along the queue; a voxel that has been
expanded has its successors found, at most one level deeper. So all voxels within as many moves as
the head of the queue is deep have been found (`Explored.mem_of_moves`), and the first voxel found
that passes the test is one move further. Going back through the table takes as many hops as the
voxel is deep (`Explored.traceBack`).
-/

namespace VoxelSwarm

/-- The route leads to a voxel that passes the test, by legal moves whose displacements add up to
the way there, and no sequence of legal moves to such a voxel is shorter. -/
structure Route.Shortest (m : Matrix) (start : Position) (g : Position → Bool) (route : Route) :
    Prop where
  goal : g route.destination = true
  sum : (route.commands.filterMap Command.offset?).foldl (· + ·) start = route.destination
  legal : m.Moves start route.commands route.destination
  least : ∀ cs q, m.Moves start cs q → g q = true → route.commands.length ≤ cs.length

/-! ## The table -/

namespace Navigator

variable {n : Navigator} {p q source : Position}

theorem prepare_eq (n : Navigator) (r : Nat) :
    n.prepare r = ⟨r, Array.replicate (Matrix.volume r) unvisited⟩ := by
  unfold prepare
  split
  · rfl
  · next hsame =>
    have hr : n.resolution = r := by
      by_contra hr
      exact hsame (Or.inl hr)
    have hsize : n.predecessors.size = Matrix.volume r := by
      by_contra hsize
      exact hsame (Or.inr hsize)
    have hfill : n.predecessors.map (fun _ => unvisited) =
        Array.replicate (Matrix.volume r) unvisited := by
      apply Array.ext
      · simp [hsize]
      · simp
    rw [hfill, hr]

/-- The table has an entry for every voxel of a grid whose voxels can be numbered. -/
structure Fits (n : Navigator) (r : Nat) : Prop where
  resolution : n.resolution = r
  size : n.predecessors.size = Matrix.volume r
  small : r ≤ 250

theorem Fits.toNat_pack {r : Nat} (h : n.Fits r) (hp : p.Inside r) :
    (p.pack r).toUInt32.toNat = p.pack r := by
  have hlt := Position.pack_lt hp
  have hvolume : r * r * r ≤ 250 * 250 * 250 :=
    Nat.mul_le_mul (Nat.mul_le_mul h.small h.small) h.small
  exact Nat.mod_eq_of_lt (by omega)

theorem Fits.pack_ne_unvisited {r : Nat} (h : n.Fits r) (hp : p.Inside r) :
    (p.pack r).toUInt32 ≠ unvisited := by
  intro heq
  have hlt := Position.pack_lt hp
  have hvolume : r * r * r ≤ 250 * 250 * 250 :=
    Nat.mul_le_mul (Nat.mul_le_mul h.small h.small) h.small
  have hnat := h.toNat_pack hp
  rw [heq] at hnat
  have : unvisited.toNat = 4294967295 := rfl
  omega

theorem fits_prepare (n : Navigator) {r : Nat} (hr : r ≤ 250) : (n.prepare r).Fits r := by
  rw [prepare_eq]
  exact ⟨rfl, Array.size_replicate, hr⟩

theorem visited_prepare (n : Navigator) (r : Nat) (p : Position) :
    (n.prepare r).visited p = false := by
  simp only [prepare_eq, visited, entry, Array.getD_eq_getD_getElem?, Array.getElem?_replicate]
  split <;> simp

theorem Fits.visit {r : Nat} (h : n.Fits r) (source p : Position) : (n.visit source p).Fits r :=
  ⟨h.resolution, (Array.size_setIfInBounds ..).trans h.size, h.small⟩

theorem Fits.entry_visit {r : Nat} (h : n.Fits r) (hp : p.Inside r) (hq : q.Inside r) :
    (n.visit source p).entry (q.pack r) =
      if q = p then (source.pack r).toUInt32 else n.entry (q.pack r) := by
  have hlt : p.pack r < n.predecessors.size := h.size ▸ Position.pack_lt hp
  simp only [Navigator.visit, entry, h.resolution, Array.getD_eq_getD_getElem?,
    Array.getElem?_setIfInBounds, Position.pack_inj hp hq, if_pos hlt, eq_comm (a := p)]
  split <;> rfl

theorem Fits.visited_visit {r : Nat} (h : n.Fits r) (hsource : source.Inside r) (hp : p.Inside r)
    (hq : q.Inside r) : (n.visit source p).visited q ↔ q = p ∨ n.visited q := by
  simp only [visited, (h.visit source p).resolution, h.resolution, h.entry_visit hp hq, bne_iff_ne]
  split
  · next heq => simp [heq, h.pack_ne_unvisited hsource]
  · next hne => simp [hne]

end Navigator

namespace Search

variable {m : Matrix} {start source p q : Position} {head : Nat} {search search' : Search}
  {depth : Position → Nat} {g : Position → Bool}

/-! ## The invariant -/

/-- The voxels before number `head` are expanded, and the table holds a way to every voxel that has
been found, of as many moves as the voxel is deep. -/
structure Explored (m : Matrix) (start : Position) (head : Nat) (search : Search)
    (depth : Position → Nat) : Prop where
  fits : search.navigator.Fits m.resolution
  nodup : search.found.toList.Nodup
  void : ∀ p ∈ search.found, m.Void p
  visited : ∀ p, m.Holds p → (search.navigator.visited p ↔ p ∈ search.found)
  root : start ∈ search.found ∧ depth start = 0
  back : ∀ p ∈ search.found, p ≠ start → ∃ q ∈ search.found,
    search.navigator.entry (p.pack m.resolution) = (q.pack m.resolution).toUInt32 ∧
      p - q ∈ m.moves q ∧ depth p = depth q + 1
  shallow : ∀ p ∈ search.found, depth p < search.found.size
  sorted : ∀ (i j : Nat) p q, i ≤ j → search.found[i]? = some p → search.found[j]? = some q →
    depth p ≤ depth q
  expanded : ∀ (i : Nat), i < head → ∀ p, search.found[i]? = some p → ∀ q, q - p ∈ m.moves p →
    q ∈ search.found ∧ depth q ≤ depth p + 1
  level : ∀ p, search.found[head]? = some p → ∀ q ∈ search.found, depth q ≤ depth p + 1

theorem explored_start (n : Navigator) (hr : m.resolution ≤ 250) (hstart : m.Void start) :
    Explored m start 0 (Search.start (n.prepare m.resolution) start) fun _ => 0 where
  fits := (n.fits_prepare hr).visit start start
  nodup := List.nodup_singleton start
  void := by simpa [Search.start] using hstart
  visited p hp := by
    rw [Search.start, (n.fits_prepare hr).visited_visit hstart.holds hstart.holds hp]
    simp [n.visited_prepare]
  root := ⟨by simp [Search.start], rfl⟩
  back p hp hne := absurd (by simpa [Search.start] using hp) hne
  shallow := by simp [Search.start]
  sorted := by simp
  expanded := by simp
  level := by simp

theorem getElem?_push_cases {found : Array Position} {i : Nat}
    (hq : (found.push p)[i]? = some q) : found[i]? = some q ∨ i = found.size ∧ q = p := by
  rw [Array.getElem?_push] at hq
  split at hq
  · next heq => exact Or.inr ⟨heq, (Option.some.inj hq).symm⟩
  · exact Or.inl hq

theorem void_of_sub_mem_moves (hp : p - source ∈ m.moves source) : m.Void p := by
  have := Matrix.void_of_mem_moves hp
  rwa [Position.add_sub_cancel] at this

namespace Explored

theorem size_le (h : Explored m start head search depth) :
    search.found.size ≤ Matrix.volume m.resolution := by
  have := Position.length_le_volume h.nodup
    fun p hp => (h.void p (Array.mem_toList_iff.1 hp)).holds
  simpa using this

theorem find (h : Explored m start head search depth) (hhead : search.found[head]? = some source)
    (hp : p - source ∈ m.moves source) (hfresh : p ∉ search.found) :
    Explored m start head ⟨search.navigator.visit source p, search.found.push p⟩
      (Function.update depth p (depth source + 1)) := by
  obtain ⟨hlt, hsource⟩ := Array.getElem?_eq_some_iff.1 hhead
  have hmem : source ∈ search.found := hsource ▸ Array.getElem_mem hlt
  have hvoid := void_of_sub_mem_moves hp
  have hold : ∀ q ∈ search.found,
      Function.update depth p (depth source + 1) q = depth q := fun q hq =>
    Function.update_of_ne (fun heq : q = p => hfresh (heq ▸ hq)) ..
  have hnew : Function.update depth p (depth source + 1) p = depth source + 1 :=
    Function.update_self ..
  refine {
    fits := h.fits.visit source p
    nodup := Position.nodup_push h.nodup hfresh
    void := ?void
    visited := ?visited
    root := ⟨Array.mem_push_of_mem _ h.root.1, (hold _ h.root.1).trans h.root.2⟩
    back := ?back
    shallow := ?shallow
    sorted := ?sorted
    expanded := ?expanded
    level := ?level }
  case void =>
    intro q hq
    rcases Array.mem_push.1 hq with hq | rfl
    · exact h.void q hq
    · exact hvoid
  case visited =>
    intro q hq
    rw [h.fits.visited_visit (h.void source hmem).holds hvoid.holds hq, h.visited q hq,
      Array.mem_push, or_comm]
  case back =>
    intro q hq hne
    rcases Array.mem_push.1 hq with hq | rfl
    · obtain ⟨t, ht, hentry, hmove, hdepth⟩ := h.back q hq hne
      have hqp : q ≠ p := fun heq => hfresh (heq ▸ hq)
      refine ⟨t, Array.mem_push_of_mem _ ht, ?_, hmove, by rw [hold q hq, hold t ht, hdepth]⟩
      rw [h.fits.entry_visit hvoid.holds (h.void q hq).holds, if_neg hqp, hentry]
    · refine ⟨source, Array.mem_push_of_mem _ hmem, ?_, hp, by rw [hnew, hold source hmem]⟩
      rw [h.fits.entry_visit hvoid.holds hvoid.holds, if_pos rfl]
  case shallow =>
    intro q hq
    rw [Array.size_push]
    rcases Array.mem_push.1 hq with hq | rfl
    · have := h.shallow q hq
      rw [hold q hq]
      omega
    · have := h.shallow source hmem
      rw [hnew]
      omega
  case sorted =>
    intro i j q t hij hq ht
    rcases getElem?_push_cases hq with hbefore | ⟨rfl, rfl⟩
    · rcases getElem?_push_cases ht with hbefore' | ⟨rfl, rfl⟩
      · rw [hold q (Array.mem_of_getElem? hbefore), hold t (Array.mem_of_getElem? hbefore')]
        exact h.sorted i j q t hij hbefore hbefore'
      · rw [hold q (Array.mem_of_getElem? hbefore), hnew]
        exact h.level source hhead q (Array.mem_of_getElem? hbefore)
    · rcases getElem?_push_cases ht with ht | ⟨rfl, rfl⟩
      · have := (Array.getElem?_eq_some_iff.1 ht).1
        omega
      · exact Nat.le_refl _
  case expanded =>
    intro i hi q hq t ht
    rcases getElem?_push_cases hq with hq | ⟨rfl, -⟩
    · obtain ⟨hfound, hdepth⟩ := h.expanded i hi q hq t ht
      rw [hold t hfound, hold q (Array.mem_of_getElem? hq)]
      exact ⟨Array.mem_push_of_mem _ hfound, hdepth⟩
    · omega
  case level =>
    intro q hq t ht
    obtain rfl : source = q := by
      rw [Array.getElem?_push, if_neg (by omega), hhead] at hq
      exact Option.some.inj hq
    rw [hold source hmem]
    rcases Array.mem_push.1 ht with ht | rfl
    · rw [hold t ht]
      exact h.level source hhead t ht
    · exact Nat.le_of_eq hnew

theorem advance (h : Explored m start head search depth)
    (hhead : search.found[head]? = some source)
    (hall : ∀ q, q - source ∈ m.moves source → q ∈ search.found) :
    Explored m start (head + 1) search depth where
  fits := h.fits
  nodup := h.nodup
  void := h.void
  visited := h.visited
  root := h.root
  back := h.back
  shallow := h.shallow
  sorted := h.sorted
  expanded i hi p hp q hq := by
    rcases Nat.lt_or_eq_of_le (Nat.le_of_lt_succ hi) with hlt | rfl
    · exact h.expanded i hlt p hp q hq
    · obtain rfl : source = p := Option.some.inj (hhead.symm.trans hp)
      exact ⟨hall q hq, h.level source hhead q (hall q hq)⟩
  level p hp q hq := by
    have := h.level source hhead q hq
    have := h.sorted head (head + 1) source p (by omega) hhead hp
    omega

/-! ## Shortest ways -/

theorem mem_of_moves (h : Explored m start head search depth) {cs : List Command}
    (hmoves : m.Moves p cs q) (hp : p ∈ search.found)
    (hlength : ∀ source, search.found[head]? = some source → depth p + cs.length ≤ depth source) :
    q ∈ search.found ∧ depth q ≤ depth p + cs.length := by
  induction hmoves with
  | nil => exact ⟨hp, Nat.le_refl _⟩
  | @cons p u q c cs hmove _ ih =>
    simp only [List.length_cons] at hlength ⊢
    -- a voxel that is less deep than the head stands before it and is expanded
    obtain ⟨i, hi, rfl⟩ := Array.mem_iff_getElem.1 hp
    have hget := Array.getElem?_eq_getElem hi
    have hbefore : i < head := by
      by_contra hnot
      have hhead := Array.getElem?_eq_getElem (Nat.lt_of_le_of_lt (Nat.le_of_not_lt hnot) hi)
      have := h.sorted head i _ _ (by omega) hhead hget
      have := hlength _ hhead
      omega
    have hu : u ∈ search.found ∧ depth u ≤ depth search.found[i] + 1 := by
      rcases Matrix.mem_moves_of_move (h.void _ hp) hmove with rfl | hlisted
      · exact ⟨hp, Nat.le_succ _⟩
      · exact h.expanded i hbefore _ hget u hlisted
    obtain ⟨hq, hdepth⟩ := ih hu.1 fun source hhead => by
      have := hlength source hhead
      omega
    exact ⟨hq, by omega⟩

/-- No sequence of moves to a voxel that has been found is shorter than the voxel is deep. -/
theorem depth_le_length (h : Explored m start head search depth) {cs : List Command}
    (hp : p ∈ search.found) (hmoves : m.Moves start cs p) : depth p ≤ cs.length := by
  by_contra hnot
  obtain ⟨-, hdepth⟩ := h.mem_of_moves hmoves h.root.1 fun source hhead => by
    have := h.level source hhead p hp
    rw [h.root.2]
    omega
  rw [h.root.2] at hdepth
  omega

theorem mem_of_linked (h : Explored m start head search depth) (hsize : search.found.size ≤ head)
    (hlinked : Linked m.Void start q) : q ∈ search.found := by
  refine hlinked.keeps (· ∈ search.found) h.root.1 fun s t _ hs htouch ht => ?_
  obtain ⟨i, hi, rfl⟩ := Array.mem_iff_getElem.1 hs
  exact (h.expanded i (by omega) _ (Array.getElem?_eq_getElem hi) t
    (Matrix.mem_moves_of_touches htouch ht)).1

/-- The way back from a voxel takes as many hops as the voxel is deep, and there is a command for
each of them. -/
theorem traceBack (h : Explored m start head search depth) {fuel : Nat} {rest : List Position}
    {cs : List Command} (hp : p ∈ search.found) (hfuel : depth p < fuel)
    (hrest : Navigator.commandsAlong m (p :: rest) = some cs) (hcs : m.Moves p cs q) :
    ∃ waypoints commands,
      search.navigator.traceBack (start.pack m.resolution) fuel (p.pack m.resolution)
        (p :: rest) = some waypoints ∧
      Navigator.commandsAlong m waypoints = some commands ∧
      m.Moves start commands q ∧ commands.length = depth p + cs.length := by
  induction fuel generalizing p rest cs with
  | zero => omega
  | succ fuel ih =>
    have hinside := (h.void p hp).holds
    have hroot := (h.void start h.root.1).holds
    unfold Navigator.traceBack
    split
    · next heq =>
      obtain rfl := (Position.pack_inj hinside hroot).1 heq
      exact ⟨p :: rest, cs, rfl, hrest, hcs, by rw [h.root.2, Nat.zero_add]⟩
    · next hne =>
      obtain ⟨t, ht, hentry, hlisted, hdepth⟩ := h.back p hp fun heq => hne (by rw [heq])
      have htin := (h.void t ht).holds
      obtain ⟨c, hcommand, hmove⟩ := Matrix.exists_move (h.void t ht) hlisted
      have hnumber :
          (search.navigator.entry (p.pack m.resolution)).toNat = t.pack m.resolution := by
        rw [hentry, h.fits.toNat_pack htin]
      simp only [hnumber, h.fits.resolution, Position.unpack_pack htin]
      have hhop : Navigator.commandsAlong m (t :: p :: rest) = some (c :: cs) := by
        simp [Navigator.commandsAlong, hcommand, hrest]
      obtain ⟨waypoints, commands, htrace, hcommands, hmoves, hlength⟩ :=
        ih ht (by omega) hhop (.cons hmove hcs)
      refine ⟨waypoints, commands, htrace, hcommands, hmoves, ?_⟩
      rw [hlength, List.length_cons]
      omega

theorem reconstruct (h : Explored m start head search depth) (hp : p ∈ search.found) :
    ∃ commands, search.navigator.reconstruct m start p = some ⟨p, commands⟩ ∧
      m.Moves start commands p ∧ commands.length = depth p := by
  have hfuel : depth p < search.navigator.predecessors.size := by
    have := h.shallow p hp
    have := h.size_le
    rw [h.fits.size]
    omega
  have hrest : Navigator.commandsAlong m [p] = some [] := rfl
  obtain ⟨waypoints, commands, htrace, hcommands, hmoves, hlength⟩ :=
    h.traceBack hp hfuel hrest (.nil p)
  refine ⟨commands, ?_, hmoves, hlength⟩
  rw [Navigator.reconstruct, h.fits.resolution, htrace]
  simp [hcommands]

end Explored

/-! ## The search -/

/-- The search has come to an end at `t`, the first voxel found that passes the test. -/
def Hit (m : Matrix) (start : Position) (g : Position → Bool) (search : Search) (t : Position) :
    Prop :=
  g t = true ∧ (∀ p ∈ search.found, g p = false) ∧
    ∃ head source depth, search.found[head]? = some source ∧ depth t = depth source + 1 ∧
      Explored m start head ⟨search.navigator, search.found.push t⟩ depth

/-- The search has come to an end without a voxel that passes the test. -/
def Missed (m : Matrix) (start : Position) (g : Position → Bool) (search : Search) : Prop :=
  (∀ p ∈ search.found, g p = false) ∧
    ∀ q, Linked m.Void start q → q ∈ search.found

theorem Explored.discover (h : Explored m start head search depth)
    (hhead : search.found[head]? = some source) (hfail : ∀ p ∈ search.found, g p = false)
    {ps : List Position} (hps : ∀ p ∈ ps, p - source ∈ m.moves source) {hit? : Option Position}
    (hresult : Id.run (Search.discover (fun p => pure (g p)) source ps search) = (hit?, search')) :
    (∀ t, hit? = some t → Hit m start g search' t) ∧
      (hit? = none → (∀ p ∈ search'.found, g p = false) ∧ (∀ p ∈ ps, p ∈ search'.found) ∧
        (∀ p ∈ search.found, p ∈ search'.found) ∧ search'.found[head]? = some source ∧
        ∃ depth', Explored m start head search' depth') := by
  induction ps generalizing search depth with
  | nil =>
    cases hresult
    exact ⟨by simp, fun _ => ⟨hfail, by simp, fun _ hp => hp, hhead, depth, h⟩⟩
  | cons p ps ih =>
    have hp := hps p List.mem_cons_self
    have hps' : ∀ q ∈ ps, q - source ∈ m.moves source :=
      fun q hq => hps q (List.mem_cons_of_mem _ hq)
    have hvoid := void_of_sub_mem_moves hp
    have hlt := (Array.getElem?_eq_some_iff.1 hhead).1
    have hpush : (search.found.push p)[head]? = some source := by
      rw [Array.getElem?_push, if_neg (by omega), hhead]
    unfold Search.discover at hresult
    split at hresult
    · next hvisited =>
      obtain ⟨hhit, hmiss⟩ := ih h hhead hfail hps' hresult
      refine ⟨hhit, fun hnone => ?_⟩
      obtain ⟨hfail', hall, hkept, hrest⟩ := hmiss hnone
      refine ⟨hfail', ?_, hkept, hrest⟩
      exact List.forall_mem_cons.2 ⟨hkept p ((h.visited p hvoid.holds).1 hvisited), hall⟩
    · next hvisited =>
      have hfresh : p ∉ search.found := fun hmem => hvisited ((h.visited p hvoid.holds).2 hmem)
      have hfound := h.find hhead hp hfresh
      cases hgoal : g p with
      | true =>
        simp only [hgoal, pure_bind, if_true] at hresult
        cases hresult
        refine ⟨fun t ht => ?_, fun hnone => nomatch hnone⟩
        obtain rfl := Option.some.inj ht
        refine ⟨hgoal, hfail, head, source, _, hhead, ?_, hfound⟩
        have hne : source ≠ p := by
          rintro rfl
          exact hfresh (Array.mem_of_getElem? hhead)
        rw [Function.update_self, Function.update_of_ne hne]
      | false =>
        simp only [hgoal, pure_bind, Bool.false_eq_true, if_false] at hresult
        have hfail' : ∀ q ∈ search.found.push p, g q = false := fun q hq => by
          rcases Array.mem_push.1 hq with hq | rfl
          · exact hfail q hq
          · exact hgoal
        obtain ⟨hhit, hmiss⟩ := ih hfound hpush hfail' hps' hresult
        refine ⟨hhit, fun hnone => ?_⟩
        obtain ⟨hfail', hall, hkept, hrest⟩ := hmiss hnone
        refine ⟨hfail', ?_, fun q hq => hkept q (Array.mem_push_of_mem _ hq), hrest⟩
        exact List.forall_mem_cons.2 ⟨hkept p Array.mem_push_self, hall⟩

/-- A search comes to an end before its fuel does: it hits the first voxel found that passes the
test, or it misses because there is none and has then expanded all that it has found. -/
theorem Explored.run (h : Explored m start head search depth)
    (hfail : ∀ p ∈ search.found, g p = false) {fuel : Nat}
    (hfuel : Matrix.volume m.resolution ≤ head + fuel) {hit? : Option Position}
    (hresult : Id.run (Search.run m (fun p => pure (g p)) fuel head search) = (hit?, search')) :
    (∀ t, hit? = some t → Hit m start g search' t) ∧
      (hit? = none → Missed m start g search' ∧
        ∃ head' depth', Explored m start head' search' depth' ∧ search'.found.size ≤ head') := by
  induction fuel generalizing head search depth with
  | zero =>
    cases hresult
    have hsize := h.size_le.trans hfuel
    exact ⟨by simp, fun _ => ⟨⟨hfail, fun q hq => h.mem_of_linked hsize hq⟩, head, depth, h, hsize⟩⟩
  | succ fuel ih =>
    unfold Search.run at hresult
    split at hresult
    · next hnone =>
      cases hresult
      have hsize := Array.getElem?_eq_none_iff.1 hnone
      exact ⟨by simp,
        fun _ => ⟨⟨hfail, fun q hq => h.mem_of_linked hsize hq⟩, head, depth, h, hsize⟩⟩
    · next source hhead =>
      rw [Id.run_bind] at hresult
      cases hmiddle : Id.run (Search.discover (fun p => pure (g p)) source
        ((m.moveOffsets source).map (source + ·)) search) with
      | mk found? middle =>
      rw [hmiddle] at hresult
      obtain ⟨hhit, hmiss⟩ := h.discover hhead hfail (fun p hp => by
        obtain ⟨d, hd, rfl⟩ := List.mem_map.1 hp
        rw [Position.add_sub_self]
        exact Matrix.mem_moveOffsets.1 hd) hmiddle
      cases found? with
      | some t =>
        cases hresult
        exact ⟨hhit, fun hnone => nomatch hnone⟩
      | none =>
        obtain ⟨hfail', hall, -, hhead', depth', h'⟩ := hmiss rfl
        refine ih (h'.advance hhead' fun q hq => hall q ?_) hfail' (by omega) hresult
        exact List.mem_map.2
          ⟨q - source, Matrix.mem_moveOffsets.2 hq, Position.add_sub_cancel source q⟩

theorem Hit.exists_route {t : Position} (h : Hit m start g search t) :
    ∃ route, search.navigator.reconstruct m start t = some route ∧ route.Shortest m start g := by
  obtain ⟨hgoal, hfail, head, source, depth, hhead, hdepth, hexplored⟩ := h
  obtain ⟨commands, hroute, hmoves, hlength⟩ := hexplored.reconstruct Array.mem_push_self
  refine ⟨_, hroute, hgoal, hmoves.foldl_offset?, hmoves, fun cs q hcs hq => ?_⟩
  by_contra hnot
  have hshort : cs.length < commands.length := Nat.lt_of_not_le hnot
  have hlt := (Array.getElem?_eq_some_iff.1 hhead).1
  have hpush : (search.found.push t)[head]? = some source := by
    rw [Array.getElem?_push, if_neg (by omega), hhead]
  -- fewer moves lead no deeper than the head of the queue, where nothing passes the test
  obtain ⟨hfound, hshallow⟩ := hexplored.mem_of_moves hcs hexplored.root.1 fun _ hfirst => by
    obtain rfl := Option.some.inj (hpush.symm.trans hfirst)
    rw [hexplored.root.2]
    omega
  rw [hexplored.root.2] at hshallow
  rcases Array.mem_push.1 hfound with hold | rfl
  · exact nomatch (hfail q hold).symm.trans hq
  · omega

end Search

/-! ## The navigator -/

namespace Navigator

variable {m : Matrix} {start : Position}

theorem run_shortestRoute (n : Navigator) (g : Position → Bool) (hstart : m.Holds start) :
    Id.run (n.shortestRoute m start fun p => pure (g p)) =
      if g start then (some ⟨start, []⟩, n)
      else
        let result := Id.run (Search.run m (fun p => pure (g p)) (Matrix.volume m.resolution) 0
          (Search.start (n.prepare m.resolution) start))
        (result.1.bind (result.2.navigator.reconstruct m start), result.2.navigator) := by
  unfold shortestRoute
  rw [if_neg (not_not_intro hstart)]
  cases hgoal : g start with
  | true => simp [hgoal]
  | false => simp [hgoal]

/-- What a search finds: a shortest route, or nothing because nothing is there. -/
theorem shortestRoute_cases (n : Navigator) (hr : m.resolution ≤ 250) (hstart : m.Void start)
    (g : Position → Bool) :
    (∃ route, (Id.run (n.shortestRoute m start fun p => pure (g p))).1 = some route ∧
      route.Shortest m start g) ∨
    (Id.run (n.shortestRoute m start fun p => pure (g p))).1 = none ∧
      ∀ q, Linked m.Void start q → g q = false := by
  rw [run_shortestRoute n g hstart.holds]
  cases hgoal : g start with
  | true =>
    exact Or.inl ⟨_, rfl, hgoal, rfl, .nil start, fun _ _ _ _ => Nat.zero_le _⟩
  | false =>
    cases hresult : Id.run (Search.run m (fun p => pure (g p)) (Matrix.volume m.resolution) 0
      (Search.start (n.prepare m.resolution) start)) with
    | mk hit? search =>
    obtain ⟨hhit, hmiss⟩ := (Search.explored_start n hr hstart).run
      (by simpa [Search.start] using hgoal) (by omega) hresult
    cases hit? with
    | some t =>
      obtain ⟨route, hroute, hshortest⟩ := (hhit t rfl).exists_route
      exact Or.inl ⟨route, hroute, hshortest⟩
    | none =>
      obtain ⟨⟨hfail, hall⟩, -⟩ := hmiss rfl
      exact Or.inr ⟨rfl, fun q hq => hfail q (hall q hq)⟩

/-- A search finds a route just when a chain of void voxels leads from its start to a voxel that
passes the test, the route is a shortest one, and a fresh navigator finds the same. -/
theorem shortestRoute_exact (n : Navigator) (hr : m.resolution ≤ 250) (hstart : m.Void start)
    (g : Position → Bool) :
    ((Id.run (n.shortestRoute m start fun p => pure (g p))).1.isSome ↔
      ∃ q, g q = true ∧ Linked m.Void start q) ∧
    (∀ route, (Id.run (n.shortestRoute m start fun p => pure (g p))).1 = some route →
      route.Shortest m start g) ∧
    (Id.run (n.shortestRoute m start fun p => pure (g p))).1 =
      (Id.run (shortestRoute {} m start fun p => pure (g p))).1 := by
  refine ⟨?_, ?_, ?_⟩
  · rcases n.shortestRoute_cases hr hstart g with ⟨route, hroute, hshortest⟩ | ⟨hnone, hall⟩
    · rw [hroute]
      exact iff_of_true rfl ⟨_, hshortest.goal, hshortest.legal.linked hstart⟩
    · rw [hnone]
      refine iff_of_false Bool.false_ne_true ?_
      rintro ⟨q, hq, hlinked⟩
      exact nomatch (hall q hlinked).symm.trans hq
  · intro route hroute
    rcases n.shortestRoute_cases hr hstart g with ⟨route', hroute', hshortest⟩ | ⟨hnone, -⟩
    · obtain rfl : route' = route := Option.some.inj (hroute'.symm.trans hroute)
      exact hshortest
    · exact nomatch hnone.symm.trans hroute
  · rw [run_shortestRoute n g hstart.holds, run_shortestRoute {} g hstart.holds, n.prepare_eq,
      prepare_eq {}]
    split <;> rfl

def used : Navigator :=
  (Id.run (shortestRoute {} (Matrix.empty 2) Position.origin fun _ => pure false)).2

theorem exists_shortestRoute_used :
    (Matrix.empty 3).resolution ≤ 250 ∧ (Matrix.empty 3).Void Position.origin ∧
    ∃ route, (Id.run (used.shortestRoute (Matrix.empty 3) Position.origin
      fun p => pure (decide (p = ⟨1, 1, 0⟩)))).1 = some route ∧
      route.Shortest (Matrix.empty 3) Position.origin fun p => decide (p = ⟨1, 1, 0⟩) := by
  have hr : (Matrix.empty 3).resolution ≤ 250 := by decide
  have hstart : (Matrix.empty 3).Void Position.origin := by decide +kernel
  obtain ⟨hsome, hshortest, -⟩ := used.shortestRoute_exact hr hstart fun p => decide (p = ⟨1, 1, 0⟩)
  have hside : Linked (Matrix.empty 3).Void Position.origin ⟨1, 0, 0⟩ :=
    .of_touches hstart (by decide) (by decide +kernel)
  obtain ⟨route, hroute⟩ := Option.isSome_iff_exists.1
    (hsome.2 ⟨⟨1, 1, 0⟩, by decide, .step hside (by decide) (by decide +kernel)⟩)
  exact ⟨hr, hstart, route, hroute, hshortest route hroute⟩

end Navigator

end VoxelSwarm
