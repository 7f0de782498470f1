import VoxelSwarm.Proofs.Navigation.Search

/-!
# What a search asks

A test of voxels may have a state of its own, and then it matters which voxels a search puts to it
and in which order. The search decides this beforehand: whatever the test answers, there is one list
of voxels that it goes down until one passes (`Search.exists_course_run`). The list begins with the
start, has every voxel that void voxels link to it, each one once, and never comes back to one that
takes fewer commands (`Navigator.exists_course`). So what a test has been asked is a beginning of
the list, and the route leads to the last of it if that has passed
(`Navigator.shortestRoute_inquires`).

The list is what the search finds when nothing passes, where `Search.Explored` holds to the end.
-/

namespace VoxelSwarm

/-- So many commands lead from one voxel to another, and fewer do not. -/
structure Matrix.Apart (m : Matrix) (p q : Position) (k : Nat) : Prop where
  reached : ∃ cs, m.Moves p cs q ∧ cs.length = k
  least : ∀ cs, m.Moves p cs q → k ≤ cs.length

/-! ## Going down a list -/

section Asking

variable {μ : Type → Type} [Monad μ] {β γ : Type}

/-- Puts voxels to the test until one passes, and gives what goes with that one. -/
def askInTurn (goal : Position → μ Bool) (otherwise : β) : List (Position × β) → μ β
  | [] => return otherwise
  | (p, found) :: rest => do
    if ← goal p then return found
    askInTurn goal otherwise rest

variable {goal : Position → μ Bool} {otherwise : β} {questions : List (Position × β)}

theorem askInTurn_cons (goal : Position → μ Bool) (otherwise : β) (p : Position) (found : β)
    (rest : List (Position × β)) :
    askInTurn goal otherwise ((p, found) :: rest) =
      goal p >>= fun passes => if passes then pure found else askInTurn goal otherwise rest := by
  simp only [askInTurn]

variable [LawfulMonad μ]

theorem askInTurn_append {k : β → μ γ} {f : β → γ} {after : γ} {rest : List (Position × γ)}
    (hfound : ∀ q ∈ questions, k q.2 = pure (f q.2))
    (hrest : k otherwise = askInTurn goal after rest) :
    askInTurn goal otherwise questions >>= k =
      askInTurn goal after (questions.map (fun q => (q.1, f q.2)) ++ rest) := by
  induction questions with
  | nil => simpa [askInTurn] using hrest
  | cons q questions ih =>
    obtain ⟨hfirst, hothers⟩ := List.forall_mem_cons.1 hfound
    rw [List.map_cons, List.cons_append, askInTurn_cons, askInTurn_cons, bind_assoc]
    congr 1
    funext passes
    cases passes with
    | true => simpa using hfirst
    | false => simpa using ih hothers

theorem askInTurn_bind_pure (f : β → γ) :
    (askInTurn goal otherwise questions >>= fun b => pure (f b)) =
      askInTurn goal (f otherwise) (questions.map fun q => (q.1, f q.2)) := by
  have happend := @askInTurn_append μ _ _ _ goal otherwise questions _ (fun b => pure (f b)) f
    (f otherwise) [] (fun _ _ => rfl) rfl
  rwa [List.append_nil] at happend

theorem askInTurn_of_first {g : Position → Bool} {before after : List (Position × β)} {p : Position}
    {found : β} (hbefore : ∀ q ∈ before, g q.1 = false) (hp : g p = true) :
    askInTurn (fun p => (pure (g p) : Id Bool)) otherwise (before ++ (p, found) :: after) =
      pure found := by
  induction before with
  | nil => rw [List.nil_append, askInTurn_cons, hp, pure_bind, if_pos rfl]
  | cons q before ih =>
    obtain ⟨hfirst, hothers⟩ := List.forall_mem_cons.1 hbefore
    rw [List.cons_append, askInTurn_cons, hfirst, pure_bind, if_neg Bool.false_ne_true, ih hothers]

theorem askInTurn_false :
    askInTurn (fun _ => (pure false : Id Bool)) otherwise questions = pure otherwise := by
  induction questions with
  | nil => rfl
  | cons q questions ih => rw [askInTurn_cons, pure_bind, if_neg Bool.false_ne_true, ih]

end Asking

/-! ## What is asked -/

section Noting

variable {σ β : Type} {otherwise : β} {questions : List (Position × β)}

/-- A test with a state, which also notes what it is asked and what it answers. -/
def noted (goal : Position → StateM σ Bool) (p : Position) :
    StateM (σ × List (Position × Bool)) Bool := do
  let (s, calls) ← get
  let (answer, s) := Id.run ((goal p).run s)
  set (s, calls ++ [(p, answer)])
  return answer

theorem run_askInTurn_noted (goal : Position → StateM σ Bool) (s : σ)
    (calls : List (Position × Bool)) :
    ∃ b s' asked,
      (askInTurn (noted goal) otherwise questions).run (s, calls) = (b, s', calls ++ asked) ∧
      (askInTurn goal otherwise questions).run s = (b, s') ∧
      ((∃ before p after, questions = before ++ (p, b) :: after ∧
          asked = before.map (fun q => (q.1, false)) ++ [(p, true)]) ∨
        b = otherwise ∧ asked = questions.map fun q => (q.1, false)) := by
  induction questions generalizing s calls with
  | nil => exact ⟨otherwise, s, [], by rw [List.append_nil]; rfl, rfl, Or.inr ⟨rfl, rfl⟩⟩
  | cons q questions ih =>
    obtain ⟨p, found⟩ := q
    cases hanswer : (goal p).run s with
    | mk answer next =>
    have hnoted : (noted goal p).run (s, calls) = (answer, next, calls ++ [(p, answer)]) := by
      change (let (answer, s) := (goal p).run s; (answer, s, calls ++ [(p, answer)])) = _
      rw [hanswer]
    rw [askInTurn_cons, askInTurn_cons, StateT.run_bind, StateT.run_bind, hnoted, hanswer]
    cases answer with
    | true => exact ⟨found, next, _, rfl, rfl, Or.inl ⟨[], p, questions, rfl, rfl⟩⟩
    | false =>
      obtain ⟨b, s', asked, hrun, hplain, hend⟩ := ih next (calls ++ [(p, false)])
      refine ⟨b, s', (p, false) :: asked, ?_, hplain, ?_⟩
      · rw [List.append_assoc] at hrun
        exact hrun
      · rcases hend with ⟨before, t, after, rfl, rfl⟩ | ⟨rfl, rfl⟩
        · exact Or.inl ⟨(p, found) :: before, t, after, rfl, rfl⟩
        · exact Or.inr ⟨rfl, rfl⟩

end Noting

namespace Search

variable {m : Matrix}

theorem exists_course_discover (source : Position) (ps : List Position) (search : Search) :
    ∃ questions search', search'.found.toList = search.found.toList ++ questions.map Prod.fst ∧
      (∀ q ∈ questions, q.2.1 = some q.1) ∧
      ∀ (μ : Type → Type) [Monad μ] [LawfulMonad μ] (goal : Position → μ Bool),
        discover goal source ps search = askInTurn goal (none, search') questions := by
  induction ps generalizing search with
  | nil => exact ⟨[], search, by simp, by simp, fun μ _ _ goal => rfl⟩
  | cons p ps ih =>
    by_cases hvisited : search.navigator.visited p = true
    · obtain ⟨questions, search', hfound, hpassed, hcourse⟩ := ih search
      refine ⟨questions, search', hfound, hpassed, fun μ _ _ goal => ?_⟩
      rw [discover, if_pos hvisited, hcourse]
    · obtain ⟨questions, search', hfound, hpassed, hcourse⟩ :=
        ih ⟨search.navigator.visit source p, search.found.push p⟩
      refine ⟨(p, some p, { search with navigator := search.navigator.visit source p }) ::
        questions, search', ?_, List.forall_mem_cons.2 ⟨rfl, hpassed⟩, fun μ _ _ goal => ?_⟩
      · rw [hfound, Array.toList_push, List.append_assoc]
        rfl
      · rw [discover, if_neg hvisited, askInTurn_cons, ← hcourse]

theorem exists_course_run (m : Matrix) (fuel head : Nat) (search : Search) :
    ∃ questions search', search'.found.toList = search.found.toList ++ questions.map Prod.fst ∧
      (∀ q ∈ questions, q.2.1 = some q.1) ∧
      ∀ (μ : Type → Type) [Monad μ] [LawfulMonad μ] (goal : Position → μ Bool),
        run m goal fuel head search = askInTurn goal (none, search') questions := by
  induction fuel generalizing head search with
  | zero => exact ⟨[], search, by simp, by simp, fun μ _ _ goal => rfl⟩
  | succ fuel ih =>
    cases hhead : search.found[head]? with
    | none =>
      refine ⟨[], search, by simp, by simp, fun μ _ _ goal => ?_⟩
      rw [run, hhead]
      rfl
    | some source =>
      obtain ⟨first, middle, hmiddle, hfirst, hdiscover⟩ :=
        exists_course_discover source ((m.moveOffsets source).map (source + ·)) search
      obtain ⟨rest, search', hfound, hrest, hrun⟩ := ih (head + 1) middle
      refine ⟨first ++ rest, search', ?_, ?_, fun μ _ _ goal => ?_⟩
      · rw [hfound, hmiddle, List.append_assoc, List.map_append]
      · exact List.forall_mem_append.2 ⟨hfirst, hrest⟩
      · rw [run, hhead]
        simp only [hdiscover]
        have happend := @askInTurn_append μ _ _ _ goal (none, middle) first _
          (fun result => if result.1.isSome then pure result
            else run m goal fuel (head + 1) result.2) id (none, search') rest ?_ ?_
        · simpa using happend
        · rintro ⟨p, found?, search⟩ hq
          obtain rfl : found? = some p := hfirst _ hq
          rfl
        · simpa using hrun μ goal

namespace Explored

variable {start p : Position} {head : Nat} {search : Search} {depth : Position → Nat}

theorem apart (h : Explored m start head search depth) (hp : p ∈ search.found) :
    m.Apart start p (depth p) := by
  obtain ⟨commands, -, hmoves, hlength⟩ := h.reconstruct hp
  exact ⟨⟨commands, hmoves, hlength⟩, fun _ hcs => h.depth_le_length hp hcs⟩

theorem linked (h : Explored m start head search depth) (hp : p ∈ search.found) :
    Linked m.Void start p := by
  obtain ⟨commands, -, hmoves, -⟩ := h.reconstruct hp
  exact hmoves.linked (h.void start h.root.1)

theorem pairwise (h : Explored m start head search depth) :
    search.found.toList.Pairwise fun p q => depth p ≤ depth q := by
  rw [List.pairwise_iff_getElem]
  intro i j hi hj hij
  exact h.sorted i j _ _ (Nat.le_of_lt hij) (Array.getElem?_eq_getElem (by simpa using hi))
    (Array.getElem?_eq_getElem (by simpa using hj))

end Explored

theorem exists_route_of_question {n : Navigator} {start p : Position} {hit? : Option Position}
    {search last : Search} {questions : List (Position × (Option Position × Search))}
    (hr : m.resolution ≤ 250) (hstart : m.Void start)
    (hnodup : (start :: questions.map Prod.fst).Nodup) (hpassed : ∀ q ∈ questions, q.2.1 = some q.1)
    (hrun : ∀ goal : Position → Id Bool, run m goal (Matrix.volume m.resolution) 0
      (Search.start (n.prepare m.resolution) start) = askInTurn goal (none, last) questions)
    (hq : (p, hit?, search) ∈ questions) :
    ∃ route, hit?.bind (search.navigator.reconstruct m start) = some route ∧
      route.destination = p ∧ m.Moves start route.commands p ∧
      m.Apart start p route.commands.length := by
  obtain rfl : hit? = some p := hpassed _ hq
  obtain ⟨before, after, rfl⟩ := List.append_of_mem hq
  have hfresh : ∀ q ∈ (start :: before.map Prod.fst), q ≠ p := by
    intro q hq heq
    rw [List.map_append, ← List.cons_append, List.map_cons] at hnodup
    exact (List.nodup_append.1 hnodup).2.2 q hq p List.mem_cons_self heq
  have hresult : Id.run (run m (fun q => pure (decide (q = p))) (Matrix.volume m.resolution) 0
      (Search.start (n.prepare m.resolution) start)) = (some p, search) := by
    rw [hrun]
    refine askInTurn_of_first (fun q hq => decide_eq_false ?_) (decide_eq_true rfl)
    exact hfresh _ (List.mem_cons_of_mem _ (List.mem_map.2 ⟨q, hq, rfl⟩))
  have hstartFails : ∀ q ∈ (Search.start (n.prepare m.resolution) start).found,
      decide (q = p) = false := by
    intro q hq
    obtain rfl : q = start := by simpa [Search.start] using hq
    exact decide_eq_false (hfresh _ List.mem_cons_self)
  obtain ⟨route, hroute, hshortest⟩ := (((explored_start n hr hstart).run hstartFails (by omega)
    hresult).1 p rfl).exists_route
  have hdestination : route.destination = p := of_decide_eq_true hshortest.goal
  have hlegal := hshortest.legal
  rw [hdestination] at hlegal
  exact ⟨route, hroute, hdestination, hlegal, ⟨route.commands, hlegal, rfl⟩,
    fun cs hcs => hshortest.least cs p hcs (decide_eq_true rfl)⟩

end Search

/-! ## What a navigator asks -/

/-- The voxels that a search asks about in turn, with what it finds when one passes: the start comes
first, then every other voxel that is linked to it, by the number of commands that it takes, and the
route found leads there by no more than these. -/
structure Course (m : Matrix) (start : Position)
    (questions : List (Position × (Option Route × Navigator))) : Prop where
  first : (questions.map Prod.fst).head? = some start
  nodup : (questions.map Prod.fst).Nodup
  mem_iff : ∀ p, p ∈ questions.map Prod.fst ↔ Linked m.Void start p
  ordered : ∃ distance : Position → Nat,
    (∀ p ∈ questions.map Prod.fst, m.Apart start p (distance p)) ∧
      (questions.map Prod.fst).Pairwise fun p q => distance p ≤ distance q
  route : ∀ q ∈ questions, ∃ route, q.2.1 = some route ∧ route.destination = q.1 ∧
    m.Moves start route.commands q.1 ∧ m.Apart start q.1 route.commands.length

namespace Navigator

variable {m : Matrix} {start : Position}

/-- What there is to give when a search has come to its end. -/
def routed (m : Matrix) (start : Position) (result : Option Position × Search) :
    Option Route × Navigator :=
  (result.1.bind (result.2.navigator.reconstruct m start), result.2.navigator)

theorem shortestRoute_eq_askInTurn {μ : Type → Type} [Monad μ] [LawfulMonad μ] (n : Navigator)
    (hstart : m.Holds start) (goal : Position → μ Bool) {last : Search}
    {questions : List (Position × (Option Position × Search))}
    (hrun : Search.run m goal (Matrix.volume m.resolution) 0
      (Search.start (n.prepare m.resolution) start) = askInTurn goal (none, last) questions) :
    n.shortestRoute m start goal = askInTurn goal (routed m start (none, last))
      ((start, some ⟨start, []⟩, n) :: questions.map fun q => (q.1, routed m start q.2)) := by
  rw [shortestRoute, if_neg (not_not_intro hstart), askInTurn_cons, ← askInTurn_bind_pure, hrun]
  rfl

/-- A search decides which voxels to ask about before it asks any. -/
theorem exists_course (n : Navigator) (hr : m.resolution ≤ 250) (hstart : m.Void start) :
    ∃ questions otherwise, Course m start questions ∧ otherwise.1 = none ∧
      ∀ (μ : Type → Type) [Monad μ] [LawfulMonad μ] (goal : Position → μ Bool),
        n.shortestRoute m start goal = askInTurn goal otherwise questions := by
  obtain ⟨questions, last, hlast, hpassed, hrun⟩ := Search.exists_course_run m
    (Matrix.volume m.resolution) 0 (Search.start (n.prepare m.resolution) start)
  -- a search that nothing passes explores all that the others explore a part of
  obtain ⟨head, depth, hexplored, hsize⟩ := (((Search.explored_start n hr hstart).run
    (g := fun _ => false) (fun _ _ => rfl) (by omega) ((hrun Id _).trans askInTurn_false)).2 rfl).2
  have hfound : last.found.toList = start :: questions.map Prod.fst := hlast
  have hnodup : (start :: questions.map Prod.fst).Nodup := hfound ▸ hexplored.nodup
  have hvoxels : ((start, (some (⟨start, []⟩ : Route), n)) ::
      questions.map fun q => (q.1, routed m start q.2)).map Prod.fst = last.found.toList := by
    simp [hfound]
  refine ⟨_, _, ⟨?first, ?nodup, ?mem_iff, ?ordered, ?route⟩, rfl,
    fun μ _ _ goal => shortestRoute_eq_askInTurn n hstart.holds goal (hrun μ goal)⟩
  case first =>
    rw [hvoxels, hfound]
    rfl
  case nodup => exact hvoxels ▸ hexplored.nodup
  case mem_iff =>
    intro p
    rw [hvoxels, Array.mem_toList_iff]
    exact ⟨hexplored.linked, hexplored.mem_of_linked hsize⟩
  case ordered =>
    rw [hvoxels]
    exact ⟨depth, fun p hp => hexplored.apart (Array.mem_toList_iff.1 hp), hexplored.pairwise⟩
  case route =>
    refine List.forall_mem_cons.2 ⟨⟨⟨start, []⟩, rfl, rfl, .nil start, ⟨[], .nil start, rfl⟩,
      fun _ _ => Nat.zero_le _⟩, ?_⟩
    intro q hq
    obtain ⟨⟨p, hit?, search⟩, hmem, rfl⟩ := List.mem_map.1 hq
    exact Search.exists_route_of_question hr hstart hnodup hpassed (hrun Id) hmem

end Navigator

/-- What a test has been asked by a search, with its answers, and the route that the search
gives. -/
structure Inquiry (m : Matrix) (start : Position) (calls : List (Position × Bool))
    (route? : Option Route) : Prop where
  /-- The start comes first. -/
  first : (calls.map Prod.fst).head? = some start
  /-- No voxel is asked about twice. -/
  once : (calls.map Prod.fst).Nodup
  /-- Void voxels lead to every one that is asked about. -/
  linked : ∀ call ∈ calls, Linked m.Void start call.1
  /-- A voxel that takes fewer commands comes before one that takes more. -/
  ordered : ∃ distance : Position → Nat,
    (∀ call ∈ calls, m.Apart start call.1 (distance call.1)) ∧
      calls.Pairwise fun a b => distance a.1 ≤ distance b.1
  /-- Nothing is asked after a voxel that passes, and the route leads there. -/
  passed : ∀ p, (p, true) ∈ calls →
    (∃ before, calls = before ++ [(p, true)] ∧ ∀ call ∈ before, call.2 = false) ∧
      ∃ route, route? = some route ∧ route.destination = p ∧ m.Moves start route.commands p ∧
        m.Apart start p route.commands.length
  /-- Without one, all voxels that void ones lead to have been asked about, and there is no
  route. -/
  failed : (∀ call ∈ calls, call.2 = false) →
    route? = none ∧ ∀ p, Linked m.Void start p → p ∈ calls.map Prod.fst

namespace Course

variable {m : Matrix} {start : Position} {questions : List (Position × (Option Route × Navigator))}

theorem inquiry {calls : List (Position × Bool)} {route? : Option Route}
    (h : Course m start questions) (hfront : calls.map Prod.fst <+: questions.map Prod.fst)
    (hpassed : ∀ p, (p, true) ∈ calls →
      (∃ before, calls = before ++ [(p, true)] ∧ ∀ call ∈ before, call.2 = false) ∧
        ∃ q ∈ questions, q.1 = p ∧ q.2.1 = route?)
    (hfailed : (∀ call ∈ calls, call.2 = false) →
      route? = none ∧ calls.map Prod.fst = questions.map Prod.fst) :
    Inquiry m start calls route? where
  first := by
    obtain ⟨rest, hrest⟩ := hfront
    cases calls with
    | nil => exact (hfailed (List.forall_mem_nil _)).2 ▸ h.first
    | cons call calls => simpa [← hrest] using h.first
  once := h.nodup.sublist hfront.sublist
  linked call hcall := (h.mem_iff _).1 (hfront.subset (List.mem_map.2 ⟨call, hcall, rfl⟩))
  ordered := by
    obtain ⟨distance, hapart, hpairwise⟩ := h.ordered
    refine ⟨distance, fun call hcall => ?_, ?_⟩
    · exact hapart _ (hfront.subset (List.mem_map.2 ⟨call, hcall, rfl⟩))
    · have hordered := hpairwise.sublist hfront.sublist
      rwa [List.pairwise_map] at hordered
  passed p hp := by
    obtain ⟨hend, q, hq, rfl, rfl⟩ := hpassed p hp
    exact ⟨hend, h.route q hq⟩
  failed hall := by
    obtain ⟨hnone, hwhole⟩ := hfailed hall
    exact ⟨hnone, fun p hp => hwhole ▸ (h.mem_iff p).2 hp⟩

end Course

namespace Navigator

variable {m : Matrix} {start : Position}

/-- Whatever state a test has and whatever it answers, a search asks about its start first, then
about other voxels that void ones link to the start, each one once and the nearer ones earlier, and
stops at the first that passes, with a shortest route that leads there. When none passes, it has
asked about all of them and finds no route. The test is asked nothing else: without the notes it
gives the same and is left in the same state. -/
theorem shortestRoute_inquires {σ : Type} (n : Navigator) (hr : m.resolution ≤ 250)
    (hstart : m.Void start) (goal : Position → StateM σ Bool) (s : σ) :
    ∃ found s' calls, (n.shortestRoute m start (noted goal)).run (s, []) = (found, s', calls) ∧
      (n.shortestRoute m start goal).run s = (found, s') ∧ Inquiry m start calls found.1 := by
  obtain ⟨questions, otherwise, hcourse, hnone, hask⟩ := n.exists_course hr hstart
  obtain ⟨found, s', calls, hnoted, hplain, hend⟩ :=
    @run_askInTurn_noted _ _ otherwise questions goal s []
  rw [hask, hask]
  refine ⟨found, s', calls, hnoted, hplain, ?_⟩
  rcases hend with ⟨before, p, after, rfl, rfl⟩ | ⟨rfl, rfl⟩
  · have hbefore : ∀ call ∈ before.map fun q => (q.1, false), call.2 = false := by simp
    refine hcourse.inquiry ⟨after.map Prod.fst, by simp⟩ (fun t ht => ?_) fun hall => ?_
    · obtain rfl : t = p := by simpa using ht
      exact ⟨⟨_, rfl, hbefore⟩, (t, found), by simp, rfl, rfl⟩
    · exact absurd (hall (p, true) (by simp)) (by simp)
  · refine hcourse.inquiry ⟨[], by simp⟩ (fun t ht => ?_) fun _ => ⟨hnone, by simp⟩
    exact absurd ht (by simp)

/-- A test that any voxel passes as soon as two others have failed it. -/
def third (_ : Position) : StateM Nat Bool := do
  let failed ← get
  set (failed + 1)
  return failed == 2

def parted : Matrix :=
  (Matrix.empty 3).setAll (Region.spanning ⟨1, 0, 0⟩ ⟨1, 2, 2⟩).voxels true

/-- A navigator that has searched another grid asks it of no voxel behind the wall. -/
theorem shortestRoute_inquires_third :
    parted.resolution ≤ 250 ∧ parted.Void Position.origin ∧
    ∃ found s' calls,
      (used.shortestRoute parted Position.origin (noted third)).run (0, []) = (found, s', calls) ∧
      (used.shortestRoute parted Position.origin third).run 0 = (found, s') ∧
      Inquiry parted Position.origin calls found.1 ∧ ∀ call ∈ calls, call.1.x = 0 := by
  have hr : parted.resolution ≤ 250 := by decide +kernel
  have hstart : parted.Void Position.origin := by decide +kernel
  have hwall : ∀ q, parted.Void q → q.x ≠ 1 := by
    have hall : ∀ i < 27, parted.Void (.unpack 3 i) → (Position.unpack 3 i).x ≠ 1 := by
      decide +kernel
    intro q hq
    have hinside : q.Inside 3 := hq.holds
    rw [← Position.unpack_pack hinside] at hq ⊢
    exact hall _ (Position.pack_lt hinside) hq
  obtain ⟨found, s', calls, hnoted, hplain, hinquiry⟩ :=
    used.shortestRoute_inquires hr hstart third 0
  refine ⟨hr, hstart, found, s', calls, hnoted, hplain, hinquiry, fun call hcall => ?_⟩
  refine (hinquiry.linked call hcall).keeps (·.x = 0) rfl fun p q _ hp htouch hq => ?_
  have hinside : q.Inside 3 := hq.holds
  have hone := hwall q hq
  rw [Position.touches_iff] at htouch
  simp only [Position.Inside] at hinside
  omega

end Navigator

end VoxelSwarm
