import VoxelSwarm.Proofs.Matrix.Floating
import VoxelSwarm.Step.Effect

/-!
# Guarded matrices

The model never gets stuck: a voxel outside the grid reads as void and differences stop at zero. The
functions in `Guarded` do the same work without such a way out. Each look at a voxel first finds the
byte that holds it and each subtraction asks for enough to subtract from; what is missing is
reported as a `Fault`, which ends everything.

On consistent matrices they do what the functions of the model do: where the voxel is inside the
grid for a single access (`get_eq`, `set_eq`), and without any condition for the walk from the
ground plane and the number of floating voxels (`floatingCount_eq`).
-/

namespace VoxelSwarm

namespace Guarded

/-- What a guard reports. -/
inductive Fault where
  | mishap (cause : Mishap)
  /-- A table is looked up past its end. -/
  | pastEnd (index size : Nat)
  /-- A number is subtracted from a smaller one. -/
  | underflow (minuend subtrahend : Nat)
  deriving DecidableEq, Repr

/-- The entry of a table exists. -/
def within (index size : Nat) : Except Fault Unit :=
  if index < size then .ok () else .error (.pastEnd index size)

/-- The difference of two numbers, the second of which must not be greater. -/
def subtract (n k : Nat) : Except Fault Nat :=
  if k ≤ n then .ok (n - k) else .error (.underflow n k)

/-! ## Voxels -/

/-- The numbers of the byte and of the bit for a voxel, which has to be inside the grid. -/
def locate (m : Matrix) (p : Position) : Except Fault (Nat × Nat) :=
  if m.Holds p then .ok (p.pack m.resolution / 8, p.pack m.resolution % 8)
  else .error (.mishap (.strayVoxel ⟨p, m.resolution⟩))

def bitAt (m : Matrix) (index k : Nat) : Except Fault Bool :=
  match m.data[index]? with
  | some byte => .ok (byte.toNat.testBit k)
  | none => .error (.pastEnd index m.data.size)

def get (m : Matrix) (p : Position) : Except Fault Bool := do
  let (index, k) ← locate m p
  bitAt m index k

def set (m : Matrix) (p : Position) (value : Bool) : Except Fault Matrix := do
  let (index, k) ← locate m p
  if (← bitAt m index k) = value then return m
  else if value then
    return { m with
      fullCount := m.fullCount + 1
      data := m.data.modify index fun byte => byte ||| Matrix.mask k }
  else
    return { m with
      fullCount := ← subtract m.fullCount 1
      data := m.data.modify index fun byte => byte &&& ~~~Matrix.mask k }

/-! ## The walk -/

/-- The voxel is full and the walk has not seen it. -/
def unseen (m : Matrix) (walk : Flood) (p : Position) : Except Fault Bool := do
  if ← get m p then return !(← get walk.seen p) else return false

def reach (walk : Flood) (p : Position) : Except Fault Flood := do
  return { walk with reached := walk.reached.push p, seen := ← set walk.seen p true }

def look (m : Matrix) (walk : Flood) (p : Position) : Except Fault Flood := do
  if ← unseen m walk p then reach walk p else return walk

def expand (m : Matrix) (walk : Flood) (p : Position) : Except Fault Flood :=
  (p.neighbors m.resolution).foldlM (look m) walk

def drain (m : Matrix) : (fuel head : Nat) → Flood → Except Fault Flood
  | 0, _, walk => .ok walk
  | fuel + 1, head, walk =>
    match walk.reached[head]? with
    | none => .ok walk
    | some p => do drain m fuel (head + 1) (← expand m walk p)

def startAt (m : Matrix) (walk : Flood) (seed : Position) : Except Fault Flood := do
  if ← unseen m walk seed then
    let begun ← reach walk seed
    drain m (Matrix.volume m.resolution) walk.reached.size
      { begun with starts := walk.starts.push seed }
  else return walk

def grounded (m : Matrix) : Except Fault (Array Position) := do
  if m.fullCount = 0 then return #[]
  else
    let walk ← (Matrix.groundPlane m.resolution).foldlM (startAt m) (Flood.start m.resolution)
    return walk.reached

def floatingCount (m : Matrix) : Except Fault Nat := do
  subtract m.fullCount (← grounded m).size

/-! ## No guard of a single access reports -/

variable {m : Matrix} {walk : Flood} {p : Position}

theorem within_eq {index size : Nat} (h : index < size) : within index size = .ok () := if_pos h

theorem locate_eq (hp : m.Holds p) :
    locate m p = .ok (p.pack m.resolution / 8, p.pack m.resolution % 8) := if_pos hp

theorem bitAt_eq (h : m.Consistent) (hp : m.Holds p) :
    bitAt m (p.pack m.resolution / 8) (p.pack m.resolution % 8) =
      .ok (m.bit (p.pack m.resolution)) := by
  have hlt := h.bit_lt_size (Matrix.pack_lt_volume hp)
  simp only [bitAt, Matrix.bit, Array.getD_eq_getD_getElem?, Array.getElem?_eq_getElem hlt,
    Option.getD_some]

theorem get_eq (h : m.Consistent) (hp : m.Holds p) : get m p = .ok (m.get p) := by
  rw [Matrix.get_eq_bit hp, ← bitAt_eq h hp, get, locate_eq hp]
  rfl

example : get (Matrix.empty 2) ⟨0, 2, 0⟩ = .error (.mishap (.strayVoxel ⟨⟨0, 2, 0⟩, 2⟩)) := by
  decide

theorem set_eq (h : m.Consistent) (hp : m.Holds p) (value : Bool) :
    set m p value = .ok (m.set p value) := by
  rw [Matrix.set, if_pos hp, Matrix.setBit]
  simp only [set, locate_eq hp, bitAt_eq h hp, bind, Except.bind]
  by_cases hsame : m.bit (p.pack m.resolution) = value
  · rw [if_pos hsame, if_pos hsame]
    rfl
  · rw [if_neg hsame, if_neg hsame]
    cases value with
    | true => rfl
    | false =>
      have hfull : m.bit (p.pack m.resolution) = true := by simpa using hsame
      have hpos : 1 ≤ m.fullCount := h.fullCount_pos (Matrix.pack_lt_volume hp) hfull
      simp only [subtract, if_pos hpos]
      rfl

/-! ## No guard of the walk reports -/

/-- A loop that never stops early, when each round keeps what the rounds to come ask for. -/
theorem foldlM_eq_foldl {α β ε : Type} {f : β → α → Except ε β} {g : β → α → β}
    {I : List α → β → Prop}
    (hround : ∀ {a l b}, I (a :: l) b → f b a = .ok (g b a) ∧ I l (g b a)) {l : List α} {b : β}
    (h : I l b) : l.foldlM f b = .ok (l.foldl g b) ∧ I [] (l.foldl g b) := by
  induction l generalizing b with
  | nil => exact ⟨rfl, h⟩
  | cons a l ih =>
    obtain ⟨hok, hnext⟩ := hround h
    rw [List.foldlM_cons, hok, List.foldl_cons]
    exact ih hnext

/-- The walk keeps its record in a consistent matrix of the size of the grid. -/
structure Fits (m : Matrix) (walk : Flood) : Prop where
  resolution : walk.seen.resolution = m.resolution
  consistent : walk.seen.Consistent

theorem fits_start (m : Matrix) : Fits m (Flood.start m.resolution) := ⟨rfl, .empty _⟩

namespace Fits

theorem reach (h : Fits m walk) (p : Position) : Fits m (walk.reach p) :=
  ⟨(Matrix.resolution_set ..).trans h.resolution, h.consistent.set p true⟩

theorem holds_seen (h : Fits m walk) (hp : m.Holds p) : walk.seen.Holds p := by
  rwa [Matrix.Holds, h.resolution]

theorem reach_eq (h : Fits m walk) (hp : m.Holds p) :
    Guarded.reach walk p = .ok (walk.reach p) := by
  rw [Guarded.reach, set_eq h.consistent (h.holds_seen hp)]
  rfl

theorem unseen_eq (h : Fits m walk) (hm : m.Consistent) (hp : m.Holds p) :
    unseen m walk p = .ok (m.get p && !walk.seen.get p) := by
  simp only [unseen, get_eq hm hp, get_eq h.consistent (h.holds_seen hp), bind, Except.bind]
  cases m.get p <;> rfl

theorem look_eq (h : Fits m walk) (hm : m.Consistent) (hp : m.Holds p) :
    look m walk p = .ok (if m.get p && !walk.seen.get p then walk.reach p else walk) := by
  simp only [look, h.unseen_eq hm hp, bind, Except.bind]
  split
  · exact h.reach_eq hp
  · rfl

theorem expand_eq (h : Fits m walk) (hm : m.Consistent) (p : Position) :
    expand m walk p = .ok (walk.expand m p) ∧ Fits m (walk.expand m p) := by
  have hinside : ∀ q ∈ p.neighbors m.resolution, m.Holds q :=
    fun q hq => (Position.mem_neighbors.1 hq).2
  obtain ⟨hok, hfits, -⟩ := foldlM_eq_foldl (f := look m)
    (I := fun qs walk => Fits m walk ∧ ∀ q ∈ qs, m.Holds q) (fun {q _ _} hI => by
      obtain ⟨hq, hqs⟩ := List.forall_mem_cons.1 hI.2
      refine ⟨hI.1.look_eq hm hq, ?_, hqs⟩
      split
      · exact hI.1.reach q
      · exact hI.1) ⟨h, hinside⟩
  exact ⟨hok, hfits⟩

theorem drain_eq (h : Fits m walk) (hm : m.Consistent) {fuel head : Nat} :
    drain m fuel head walk = .ok (walk.drain m fuel head) ∧ Fits m (walk.drain m fuel head) := by
  induction fuel generalizing head walk with
  | zero => exact ⟨rfl, h⟩
  | succ fuel ih =>
    rw [drain, Flood.drain]
    cases walk.reached[head]? with
    | none => exact ⟨rfl, h⟩
    | some p =>
      obtain ⟨hok, hfits⟩ := h.expand_eq hm p
      simp only [hok, bind, Except.bind]
      exact ih hfits

theorem startAt_eq (h : Fits m walk) (hm : m.Consistent) (hp : m.Holds p) :
    startAt m walk p = .ok (walk.startAt m p) ∧ Fits m (walk.startAt m p) := by
  have hbegun : Fits m { walk.reach p with starts := walk.starts.push p } :=
    ⟨(h.reach p).resolution, (h.reach p).consistent⟩
  simp only [startAt, Flood.startAt, h.unseen_eq hm hp, h.reach_eq hp, bind, Except.bind]
  split
  · exact hbegun.drain_eq hm
  · exact ⟨rfl, h⟩

end Fits

theorem inside_of_mem_groundPlane {r : Nat} (hp : p ∈ Matrix.groundPlane r) : p.Inside r := by
  simp only [Matrix.groundPlane, Region.mem_grid, Region.mem_interval, List.mem_singleton] at hp
  simp only [Position.Inside]
  omega

theorem grounded_eq (h : m.Consistent) : grounded m = .ok m.grounded := by
  have hseeds : ∀ p ∈ Matrix.groundPlane m.resolution, m.Holds p :=
    fun _ hp => inside_of_mem_groundPlane hp
  have hwalk := foldlM_eq_foldl (f := startAt m)
    (I := fun seeds walk => Fits m walk ∧ ∀ p ∈ seeds, m.Holds p) (fun hI => by
      obtain ⟨hp, hrest⟩ := List.forall_mem_cons.1 hI.2
      obtain ⟨hok, hfits⟩ := hI.1.startAt_eq h hp
      exact ⟨hok, hfits, hrest⟩) ⟨fits_start m, hseeds⟩
  rw [grounded, Matrix.grounded]
  split
  · rfl
  · rw [hwalk.1]
    rfl

/-- The number of floating voxels is found without a stray look or a negative difference. -/
theorem floatingCount_eq (h : m.Consistent) : floatingCount m = .ok m.floatingCount := by
  rw [floatingCount, grounded_eq h]
  exact if_pos (Matrix.groundedCount_le_fullCount h)

end Guarded

end VoxelSwarm
