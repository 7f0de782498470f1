import VoxelSwarm.Proofs.Snapshot.RoundTrip
import VoxelSwarm.Proofs.Step.Hollow
import VoxelSwarm.Proofs.Step.Runs

/-!
# Runs lead from storable states to storable states

A step neither changes the size of the grid nor the model that is to be built. A bot that it moves
or brings to life is inside the grid, and every other slot keeps a position that was there before
(`Completes.position_cases`). So a state that can be stored is followed by others that can, as long
as their energy fits its word (`Run.packable`).
-/

namespace VoxelSwarm

theorem Position.storable_of_inside {p : Position} {r : Nat} (h : p.Inside r)
    (hr : r ≤ Matrix.maxResolution) : p.Storable := by
  obtain ⟨⟨hx, hx'⟩, ⟨hy, hy'⟩, hz, hz'⟩ := h
  rw [Matrix.maxResolution] at hr
  constructor <;> omega

namespace State

variable {s t : State} {rules : Rules} {plan : Plan} {report : StepReport} {b x : Bot}
  {rounds : List (State × Plan)}

theorem Rewrites.position_cases {l : List Bot} (h : s.Rewrites plan b l) (hb : b ∈ s.activeBots)
    (hx : x ∈ l) : x.active = true ∨ ∃ c ∈ s.activeBots, x.position = c.position := by
  have hactive := active_of_mem hb
  cases h with
  | stands c y _ _ _ _ hsame =>
    obtain rfl := List.mem_singleton.1 hx
    exact .inl (hsame.trans hactive)
  | halts =>
    obtain rfl := List.mem_singleton.1 hx
    exact .inr ⟨b, hb, rfl⟩
  | absorbs nd c _ hc =>
    rcases List.mem_cons.1 hx with rfl | hx
    · exact .inl hactive
    · obtain rfl := List.mem_singleton.1 hx
      exact .inr ⟨c, hc, rfl⟩
  | absorbed => cases hx
  | splits nd m child rest =>
    rcases List.mem_cons.1 hx with rfl | hx
    · exact .inl hactive
    · obtain rfl := List.mem_singleton.1 hx
      exact .inl rfl

namespace Completes

/-- After a step a slot has the position that it had before, or one inside the grid. -/
theorem position_cases (hc : s.Completes rules plan report t) (h : s.Coherent)
    (hm : s.matrix.Consistent) (hx : x ∈ t.bots.toList) :
    x ∈ s.bots.toList ∨ t.matrix.Holds x.position := by
  have hmid := hc.midway h hm
  have hl := hc.legal h.toSeated
  have ht := hc.coherent h hm
  obtain ⟨i, hi⟩ := Array.mem_iff_getElem?.1 (Array.mem_toList_iff.1 hx)
  have hslot : t.bot? x.id = some x := by
    rw [bot?, ht.slot_id i x hi, hi]
  by_cases hrewritten : ∃ b ∈ s.activeBots, ∃ y ∈ s.rewritten plan b, y.id = x.id
  · obtain ⟨b, hb, y, hy, hid⟩ := hrewritten
    obtain rfl : y = x := by
      have hfound := hmid.rewritten b hb y hy
      rw [hid, hslot] at hfound
      exact (Option.some.inj hfound).symm
    refine .inr ?_
    rcases (hl.rewrites h hb).position_cases hb hy with hactive | ⟨c, hcmem, hposition⟩
    · exact ht.inside y (ht.mem_of_bot? hslot hactive)
    · rw [hposition, Matrix.Holds, hmid.resolution]
      exact h.inside c hcmem
  · push Not at hrewritten
    rw [hmid.kept x.id hrewritten] at hslot
    exact .inl (Array.mem_toList_iff.2 (Array.mem_of_getElem? hslot))

theorem packable (hc : s.Completes rules plan report t) (h : s.Coherent) (hs : s.Packable) :
    t.Packable := by
  have hmid := hc.midway h hs.matrix.consistent
  have hle : t.matrix.resolution ≤ Matrix.maxResolution := by
    rw [hmid.resolution]
    exact hs.matrix.resolution_le
  refine ⟨⟨hmid.consistent, hle⟩, hmid.target ▸ hs.target, fun x hx => ?_⟩
  rcases hc.position_cases h hs.matrix.consistent hx with hbefore | hholds
  · exact hs.positions x hbefore
  · exact Position.storable_of_inside hholds hle

end Completes

theorem Run.packable (hrun : Run rules s rounds t) (h : s.Coherent) (hs : s.Packable) :
    t.Packable := by
  refine (hrun.keeps (I := fun s => s.Coherent ∧ s.Packable) ?_ ⟨h, hs⟩).2
  rintro _ _ _ _ hc ⟨h, hs⟩
  exact ⟨hc.coherent h hs.matrix.consistent, hc.packable h hs⟩

theorem packable_start {source target : Matrix} (hsource : source.Storable)
    (htarget : target.Storable) : (start source target).Packable := by
  refine ⟨hsource, htarget, fun b hb => ?_⟩
  have horigin : ∀ b ∈ foundingSlots.toList, b.position = Position.origin := by decide +kernel
  rw [bots_start] at hb
  rw [horigin b hb]
  constructor <;> decide

end State

end VoxelSwarm
