import Mathlib.Algebra.Order.Ring.Int
import VoxelSwarm.Proofs.Step.Legal

/-!
# Turns

What one bot does in its turn, told from the state before the step: the slots it rewrites
(`rewritten`), the voxels it writes (`editOf`) and what it costs (`costOf`). `Rewrites` lists all
that a legal turn can do to the slots, so what holds of every turn is shown by cases on it. Each
slot is rewritten in the turn of one bot at most (`Owns.unique`) and each voxel written by one bot
at most (`Legal.not_mem_edit`), because footprints and identifiers are disjoint.
-/

namespace VoxelSwarm

namespace Command

def travel : Command → Int
  | .smove lld => Energy.straight lld
  | .lmove sld₁ sld₂ => Energy.bent sld₁ sld₂
  | _ => 0

def growth : Command → Int
  | .fission _ _ => 1
  | .fusionP _ => -1
  | _ => 0

/-- The voxels that a command of a bot at `position` is about, and the value they are to get. -/
def addressed (position : Position) : Command → Option Edit
  | .fill nd => some ⟨true, [position + nd]⟩
  | .void nd => some ⟨false, [position + nd]⟩
  | .gfill nd fd => some ⟨true, (groupRegion position nd fd).voxels⟩
  | .gvoid nd fd => some ⟨false, (groupRegion position nd fd).voxels⟩
  | _ => none

end Command

def Edit.cost (e : Edit) (m : Matrix) : Int :=
  (e.voxels.map fun p => Energy.write e.value (m.get p)).sum

namespace State

/-- The slots as the turn of a bot leaves them. The slot of a bot that is absorbed changes in the
turn of the other one. -/
def rewritten (s : State) (plan : Plan) (b : Bot) : List Bot :=
  match plan.command? b.id with
  | some .halt => [b.retire]
  | some (.smove lld) => [{ b with position := b.position + lld }]
  | some (.lmove sld₁ sld₂) => [{ b with position := b.position + sld₁ + sld₂ }]
  | some (.fusionP nd) =>
    match (plan.fusionPartner? s b.position nd false).bind s.bot? with
    | none => [b]
    | some c => [b.absorb c.id c.seeds, c.retire]
  | some (.fusionS _) => []
  | some (.fission nd m) =>
    match b.handOver m.toNat with
    | none => [b]
    | some (child, seeds, parent) => [parent, Bot.activeAt child (b.position + nd) seeds]
  | _ => [b]

/-- What a bot writes in its turn. -/
def editOf (s : State) (plan : Plan) (b : Bot) : Option Edit :=
  (plan.command? b.id).bind (s.edit? plan b.id)

/-- What the turn of a bot costs. -/
def costOf (s : State) (plan : Plan) (b : Bot) : Int :=
  match plan.command? b.id with
  | none => 0
  | some c =>
    c.travel + Energy.spawn * c.growth + ((s.editOf plan b).map (·.cost s.matrix)).getD 0

/-- The slot `k` is rewritten in the turn of `b`: its own slot, that of the bot it absorbs, or that
of a seed it brings to life. -/
inductive Owns (s : State) (plan : Plan) (b : Bot) (k : BotId) : Prop
  | self (own : k = b.id) (stays : ∀ nd, plan.command? b.id ≠ some (.fusionS nd))
  | partner (c : Bot) (mem : c ∈ s.activeBots) (pairs : plan.Pairs b c) (own : k = c.id)
  | seed (nd : Displacement) (m : UInt8) (splits : plan.command? b.id = some (.fission nd m))
    (mem : k ∈ b.seeds)

/-- What a turn can do to the slots: the bot may stay with all that it holds, leave for good, absorb
another one, be absorbed, or hand seeds over to a new one. -/
inductive Rewrites (s : State) (plan : Plan) (b : Bot) : List Bot → Prop
  | stands (c : Command) (x : Bot) (command : plan.command? b.id = some c)
    (steady : c.growth = 0 ∧ c ≠ .halt ∧ ∀ nd, c ≠ .fusionS nd)
    (id : x.id = b.id) (seeds : x.seeds = b.seeds) (active : x.active = b.active) :
    Rewrites s plan b [x]
  | halts (command : plan.command? b.id = some .halt) : Rewrites s plan b [b.retire]
  | absorbs (nd : Displacement) (c : Bot) (command : plan.command? b.id = some (.fusionP nd))
    (mem : c ∈ s.activeBots) (pairs : plan.Pairs b c) :
    Rewrites s plan b [b.absorb c.id c.seeds, c.retire]
  | absorbed (nd : Displacement) (c : Bot) (command : plan.command? b.id = some (.fusionS nd))
    (mem : c ∈ s.activeBots) (pairs : plan.Pairs c b) : Rewrites s plan b []
  | splits (nd : Displacement) (m : UInt8) (child : BotId) (rest : List BotId)
    (command : plan.command? b.id = some (.fission nd m)) (seeds : b.seeds = child :: rest) :
    Rewrites s plan b [{ b with seeds := rest.drop m.toNat },
      Bot.activeAt child (b.position + nd) (rest.take m.toNat)]

variable {s : State} {rules : Rules} {plan : Plan} {b b' c c' x : Bot} {k : BotId}

/-! ## Partners -/

theorem pairs_id_ne (h : plan.Pairs b c) : b.id ≠ c.id := by
  obtain ⟨nd, hnd, -⟩ := h.1
  obtain ⟨nd', hnd', -⟩ := h.2
  intro hid
  rw [hid, hnd'] at hnd
  simp at hnd

theorem pairs_left_unique (h : s.Arranged) (hb : b ∈ s.activeBots) (hb' : b' ∈ s.activeBots)
    (hp : plan.Pairs b c) (hp' : plan.Pairs b' c) : b = b' := by
  obtain ⟨nd, hnd, hpos⟩ := hp.2
  obtain ⟨nd', hnd', hpos'⟩ := hp'.2
  obtain rfl : nd = nd' := by simpa using hnd.symm.trans hnd'
  exact h.eq_of_position_eq hb hb' (hpos.trans hpos'.symm)

theorem pairs_right_unique (h : s.Arranged) (hc : c ∈ s.activeBots) (hc' : c' ∈ s.activeBots)
    (hp : plan.Pairs b c) (hp' : plan.Pairs b c') : c = c' := by
  obtain ⟨nd, hnd, hpos⟩ := hp.1
  obtain ⟨nd', hnd', hpos'⟩ := hp'.1
  obtain rfl : nd = nd' := by simpa using hnd.symm.trans hnd'
  exact h.eq_of_position_eq hc hc' (hpos.trans hpos'.symm)

theorem fusionPartner?_eq_some {p : Position} {nd : Displacement} {primary : Bool}
    (hc : c ∈ s.activeBots) (hpos : c.position = p + nd) (hfuses : plan.FusesAt primary c p)
    (hunique : ∀ other ∈ s.activeBots, other.position = p + nd → plan.FusesAt primary other p →
      other.id = c.id) :
    plan.fusionPartner? s p nd primary = some c.id := by
  obtain ⟨id, hid⟩ := Option.isSome_iff_exists.1
    (fusionPartner?_isSome_iff.2 ⟨c, hc, hpos, hfuses⟩)
  have hfound := hid
  rw [Plan.fusionPartner?, Option.map_eq_some_iff] at hfound
  obtain ⟨other, hother, rfl⟩ := hfound
  have htest := List.find?_some hother
  obtain ⟨hat, hback⟩ := partner_test_iff.1 htest
  rw [hid, hunique other (List.mem_of_find?_eq_some hother) hat hback]

namespace Legal

theorem exists_partner (hl : s.Legal rules plan) (h : s.Arranged) (hb : b ∈ s.activeBots)
    {nd : Displacement} (hcmd : plan.command? b.id = some (.fusionP nd)) :
    ∃ c ∈ s.activeBots, plan.Pairs b c ∧ c.position = b.position + nd ∧
      plan.fusionPartner? s b.position nd false = some c.id := by
  obtain ⟨-, c, hc, hpairs⟩ := hl.permits b hb _ hcmd
  have hpos : c.position = b.position + nd := (fusesAt_iff true hcmd).1 hpairs.1
  refine ⟨c, hc, hpairs, hpos, fusionPartner?_eq_some hc hpos hpairs.2 ?_⟩
  intro other hother hat _
  rw [h.eq_of_position_eq hother hc (hat.trans hpos.symm)]

theorem rewritten_fusionP (hl : s.Legal rules plan) (h : s.Arranged) (hb : b ∈ s.activeBots)
    {nd : Displacement} (hcmd : plan.command? b.id = some (.fusionP nd)) :
    ∃ c ∈ s.activeBots, plan.Pairs b c ∧
      s.rewritten plan b = [b.absorb c.id c.seeds, c.retire] := by
  obtain ⟨c, hc, hpairs, -, hpartner⟩ := hl.exists_partner h hb hcmd
  refine ⟨c, hc, hpairs, ?_⟩
  simp only [rewritten, hcmd, hpartner, Option.bind_some, h.bot?_of_mem hc]

theorem handOver_eq (hl : s.Legal rules plan) (hb : b ∈ s.activeBots)
    {nd : Displacement} {m : UInt8} (hcmd : plan.command? b.id = some (.fission nd m)) :
    ∃ child rest, b.seeds = child :: rest ∧ m.toNat ≤ rest.length ∧
      b.handOver m.toNat =
        some (child, rest.take m.toNat, { b with seeds := rest.drop m.toNat }) := by
  have hlen : m.toNat < b.seeds.length := (hl.permits b hb _ hcmd).2
  cases hseeds : b.seeds with
  | nil => simp [hseeds] at hlen
  | cons child rest =>
    have hle : m.toNat ≤ rest.length := by simpa [hseeds, Nat.lt_succ_iff] using hlen
    refine ⟨child, rest, rfl, hle, ?_⟩
    rw [Bot.handOver, hseeds]
    simp only
    rw [if_neg (by omega)]

theorem rewritten_fission (hl : s.Legal rules plan) (hb : b ∈ s.activeBots)
    {nd : Displacement} {m : UInt8} (hcmd : plan.command? b.id = some (.fission nd m)) :
    ∃ child rest, b.seeds = child :: rest ∧ m.toNat ≤ rest.length ∧
      s.rewritten plan b = [{ b with seeds := rest.drop m.toNat },
        Bot.activeAt child (b.position + nd) (rest.take m.toNat)] := by
  obtain ⟨child, rest, hseeds, hle, hsplit⟩ := hl.handOver_eq hb hcmd
  refine ⟨child, rest, hseeds, hle, ?_⟩
  simp only [rewritten, hcmd, hsplit]

theorem retire_mem_rewritten (hl : s.Legal rules plan) (h : s.Arranged) (hb : b ∈ s.activeBots)
    (hc : c ∈ s.activeBots) (hpairs : plan.Pairs b c) : c.retire ∈ s.rewritten plan b := by
  obtain ⟨nd, hcmd, -⟩ := hpairs.1
  obtain ⟨c', hc', hpairs', hrew⟩ := hl.rewritten_fusionP h hb hcmd
  obtain rfl := pairs_right_unique h hc hc' hpairs hpairs'
  simp [hrew]

/-! ## Slots -/

theorem rewrites (hl : s.Legal rules plan) (h : s.Arranged) (hb : b ∈ s.activeBots) :
    s.Rewrites plan b (s.rewritten plan b) := by
  obtain ⟨cmd, hc⟩ := (hl.covers b.id).2 (List.mem_map_of_mem hb)
  cases cmd with
  | halt =>
    simp only [rewritten, hc]
    exact .halts hc
  | fusionP nd =>
    obtain ⟨c, hcmem, hpairs, hrew⟩ := hl.rewritten_fusionP h hb hc
    rw [hrew]
    exact .absorbs nd c hc hcmem hpairs
  | fusionS nd =>
    obtain ⟨-, c, hcmem, hpairs⟩ := hl.permits b hb _ hc
    simp only [rewritten, hc]
    exact .absorbed nd c hc hcmem hpairs
  | fission nd m =>
    obtain ⟨child, rest, hseeds, -, hrew⟩ := hl.rewritten_fission hb hc
    rw [hrew]
    exact .splits nd m child rest hc hseeds
  | _ =>
    simp only [rewritten, hc]
    exact .stands _ _ hc ⟨rfl, by simp, by simp⟩ rfl rfl rfl

theorem owns_of_mem_rewritten (hl : s.Legal rules plan) (h : s.Arranged) (hb : b ∈ s.activeBots)
    (hx : x ∈ s.rewritten plan b) : s.Owns plan b x.id := by
  have hturn := hl.rewrites h hb
  generalize s.rewritten plan b = l at hturn hx
  cases hturn with
  | stands cmd y hc hsteady hid _ _ =>
    obtain rfl := List.mem_singleton.1 hx
    exact .self hid fun nd heq => hsteady.2.2 nd (Option.some.inj (hc.symm.trans heq))
  | halts hc =>
    obtain rfl := List.mem_singleton.1 hx
    exact .self rfl (by simp [hc])
  | absorbs nd c hc hcmem hpairs =>
    rcases List.mem_cons.1 hx with rfl | hx
    · exact .self rfl (by simp [hc])
    · obtain rfl := List.mem_singleton.1 hx
      exact .partner c hcmem hpairs rfl
  | absorbed => cases hx
  | splits nd m child rest hc hseeds =>
    rcases List.mem_cons.1 hx with rfl | hx
    · exact .self rfl (by simp [hc])
    · obtain rfl := List.mem_singleton.1 hx
      exact .seed nd m hc (by simp [hseeds, Bot.activeAt])

end Legal

/-- A slot is rewritten in the turn of one bot only. -/
theorem Owns.unique (h : s.Arranged) (hb : b ∈ s.activeBots) (hb' : b' ∈ s.activeBots)
    (hk : s.Owns plan b k) (hk' : s.Owns plan b' k) : b = b' := by
  cases hk with
  | self hown hstays =>
    cases hk' with
    | self hown' _ => exact h.eq_of_id_eq hb hb' (hown.symm.trans hown')
    | partner c' hc' hpairs' hown' =>
      obtain ⟨nd, hnd, -⟩ := hpairs'.2
      exact absurd (h.eq_of_id_eq hb hc' (hown.symm.trans hown') ▸ hnd) (hstays nd)
    | seed _ _ _ hmem' => exact absurd (hown ▸ hmem') (h.id_not_mem_seeds hb hb')
  | partner c hc hpairs hown =>
    cases hk' with
    | self hown' hstays' =>
      obtain ⟨nd, hnd, -⟩ := hpairs.2
      exact absurd (h.eq_of_id_eq hb' hc (hown'.symm.trans hown) ▸ hnd) (hstays' nd)
    | partner c' hc' hpairs' hown' =>
      obtain rfl := h.eq_of_id_eq hc hc' (hown.symm.trans hown')
      exact pairs_left_unique h hb hb' hpairs hpairs'
    | seed _ _ _ hmem' => exact absurd (hown ▸ hmem') (h.id_not_mem_seeds hc hb')
  | seed _ _ _ hmem =>
    cases hk' with
    | self hown' _ => exact absurd (hown' ▸ hmem) (h.id_not_mem_seeds hb' hb)
    | partner c' hc' _ hown' => exact absurd (hown' ▸ hmem) (h.id_not_mem_seeds hc' hb)
    | seed _ _ _ hmem' => exact h.holder_unique hb hb' hmem hmem'

/-! ## Voxels -/

theorem editOf_eq_some_iff (hs : s.Seated) (hb : b ∈ s.activeBots) {e : Edit} :
    s.editOf plan b = some e ↔ ∃ c, plan.command? b.id = some c ∧
      c.addressed b.position = some e ∧
      ∀ kind nd fd, c.group? = some (kind, nd, fd) →
        plan.groupLeader? s kind (groupRegion b.position nd fd) = some b.id := by
  have hpos := hs.positionOf_eq hb
  rw [editOf]
  cases plan.command? b.id with
  | none => simp
  | some c =>
    cases c
    case gfill nd fd | gvoid nd fd =>
      simp only [Option.bind_some, edit?, hpos]
      constructor
      · intro he
        split at he
        · next hlead => exact ⟨_, rfl, he, by rintro _ _ _ ⟨⟩; exact hlead⟩
        · cases he
      · rintro ⟨_, ⟨⟩, he, hlead⟩
        rw [if_pos (hlead _ _ _ rfl)]
        exact he
    all_goals simp [edit?, hpos, Command.addressed, Command.group?]

theorem nodup_addressed {cmd : Command} {p : Position} {e : Edit}
    (he : cmd.addressed p = some e) : e.voxels.Nodup := by
  cases cmd <;> simp only [Command.addressed, Option.some.injEq, reduceCtorEq] at he
  all_goals subst he
  · exact List.nodup_singleton _
  · exact List.nodup_singleton _
  · exact Region.nodup_voxels _
  · exact Region.nodup_voxels _

theorem Seated.position_mem_claimed (hs : s.Seated) (hb : b ∈ s.activeBots) {cmd : Command}
    (hc : plan.command? b.id = some cmd) : b.position ∈ s.claimed plan b.id := by
  have hpos := hs.positionOf_eq hb
  rw [claimed_eq hc]
  cases cmd <;> simp only [footprint, hpos]
  case smove => exact start_mem_straightPath ..
  case lmove => exact List.mem_append_left _ (start_mem_straightPath ..)
  case gfill | gvoid => split <;> exact List.mem_cons_self
  all_goals exact List.mem_cons_self

namespace Legal

theorem holds_addressed (hl : s.Legal rules plan) (hb : b ∈ s.activeBots) {cmd : Command}
    (hc : plan.command? b.id = some cmd) {e : Edit} (he : cmd.addressed b.position = some e) :
    ∀ p ∈ e.voxels, s.matrix.Holds p := by
  have hpermits := hl.permits b hb cmd hc
  intro p hp
  cases cmd <;> simp only [Command.addressed, Option.some.injEq, reduceCtorEq] at he
  all_goals subst he
  · rwa [List.mem_singleton.1 hp]
  · rwa [List.mem_singleton.1 hp]
  · exact Region.inside_of_spanning hpermits.near hpermits.far (Region.mem_voxels.1 hp)
  · exact Region.inside_of_spanning hpermits.near hpermits.far (Region.mem_voxels.1 hp)

theorem position_not_addressed (hl : s.Legal rules plan) (hb : b ∈ s.activeBots) {cmd : Command}
    (hc : plan.command? b.id = some cmd) {e : Edit} (he : cmd.addressed b.position = some e) :
    b.position ∉ e.voxels := by
  have hpermits := hl.permits b hb cmd hc
  have hvalid := hl.valid b hb cmd hc
  intro hp
  cases cmd <;> simp only [Command.addressed, Option.some.injEq, reduceCtorEq] at he
  all_goals subst he
  case fill nd | void nd =>
    have hnear : nd.Near := hvalid (.near, nd) (by simp [Command.arguments])
    exact hnear.add_ne _ (List.mem_singleton.1 hp).symm
  case gfill | gvoid => exact hpermits.outside (Region.mem_voxels.1 hp)

theorem position_mem_claimed (hl : s.Legal rules plan) (hs : s.Seated) (hb : b ∈ s.activeBots) :
    b.position ∈ s.claimed plan b.id := by
  obtain ⟨cmd, hc⟩ := (hl.covers b.id).2 (List.mem_map_of_mem hb)
  exact hs.position_mem_claimed hb hc

theorem edit_subset_claimed (hs : s.Seated) (hb : b ∈ s.activeBots) {e : Edit}
    (he : s.editOf plan b = some e) : ∀ p ∈ e.voxels, p ∈ s.claimed plan b.id := by
  obtain ⟨cmd, hc, haddr, hlead⟩ := (editOf_eq_some_iff hs hb).1 he
  have hpos := hs.positionOf_eq hb
  intro p hp
  rw [claimed_eq hc]
  cases cmd <;> simp only [Command.addressed, Option.some.injEq, reduceCtorEq] at haddr
  all_goals
    subst haddr
    simp only [footprint, hpos]
  case fill | void => exact List.mem_cons_of_mem _ hp
  case gfill | gvoid =>
    rw [if_pos (hlead _ _ _ rfl)]
    exact List.mem_cons_of_mem _ hp

theorem holds_edit (hl : s.Legal rules plan) (hs : s.Seated) (hb : b ∈ s.activeBots) {e : Edit}
    (he : s.editOf plan b = some e) : ∀ p ∈ e.voxels, s.matrix.Holds p := by
  obtain ⟨cmd, hc, haddr, -⟩ := (editOf_eq_some_iff hs hb).1 he
  exact hl.holds_addressed hb hc haddr

/-- What one bot writes, no other claims. -/
theorem not_mem_edit (hl : s.Legal rules plan) (hs : s.Seated) (hb : b ∈ s.activeBots)
    (hb' : b' ∈ s.activeBots) (hne : b ≠ b') {p : Position} (hp : p ∈ s.claimed plan b.id)
    {e : Edit} (he : s.editOf plan b' = some e) : p ∉ e.voxels := fun hmem =>
  hl.apart b hb b' hb' hne p hp (edit_subset_claimed hs hb' he p hmem)

end Legal

end State

end VoxelSwarm
