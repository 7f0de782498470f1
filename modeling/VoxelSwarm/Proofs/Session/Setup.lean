import VoxelSwarm.Proofs.Session.Restore

/-!
# Starting in given models

A run starts in any models that are of one size, while a session takes a state from elsewhere only
if it makes sense. The swarm that a run starts with always does, so the check of that state is about
the grid alone (`checkWellFormed_of_initial`): the origin, where the first bot stands, has to be a
void voxel of the grid, and nothing may float. An empty grid passes if it has a voxel at all;
a model that matter is taken from may fail each of these, and then a session refuses the state that
another one starts from.
-/

namespace VoxelSwarm

variable {source target : Option Matrix} {s : State}

namespace State

theorem resolution_of_initial (h : initial source target = .ok s) :
    s.matrix.resolution = s.target.resolution := by
  cases source with
  | none =>
    cases target with
    | none => cases h
    | some target =>
      obtain rfl := Except.ok.inj h
      rfl
  | some source =>
    cases target with
    | none =>
      obtain rfl := Except.ok.inj h
      rfl
    | some target =>
      rw [initial, Matrix.checkSameResolution] at h
      split at h
      · next hsame =>
        obtain rfl := Except.ok.inj h
        exact hsame
      · cases h

theorem matrix_of_initial (h : initial none target = .ok s) :
    s.matrix = Matrix.empty s.resolution := by
  cases target with
  | none => cases h
  | some target =>
    obtain rfl := Except.ok.inj h
    rfl

theorem checkPlace_founder (m : Matrix) :
    checkPlace m [] founder =
      if ¬m.Holds Position.origin then .error (.botOutOfBounds BotId.first Position.origin)
      else if m.get Position.origin then .error (.botInsideMatter BotId.first Position.origin)
      else .ok () := rfl

/-- Of all that the check asks for, only the place of the first bot and floating matter are left. -/
theorem checkWellFormed_start (h : initial source target = .ok s) :
    s.checkWellFormed = (do checkPlace s.matrix [] founder; s.checkGrounded) := by
  have hplaces : checkPlaces s.matrix [] s.activeBots = checkPlace s.matrix [] founder := by
    obtain ⟨m, m', rfl⟩ := exists_start_of_initial h
    rw [activeBots_start, checkPlaces, checkPlaces]
    cases checkPlace (start m m').matrix [] founder <;> rfl
  rw [checkWellFormed_of_orderly (orderly_of_initial h) (resolution_of_initial h), hplaces]

theorem checkGrounded_start (h : initial source target = .ok s) :
    s.checkGrounded =
      if 0 < s.matrix.floatingCount then .error (.ungrounded s.matrix.floatingCount)
      else .ok () := by
  obtain ⟨m, m', rfl⟩ := exists_start_of_initial h
  rw [checkGrounded]
  exact if_congr (and_iff_right rfl) rfl rfl

theorem checkWellFormed_of_building (h : initial none target = .ok s) (hpos : 0 < s.resolution) :
    s.checkWellFormed = .ok () := by
  have hplace : s.matrix.Holds Position.origin := by
    show Position.origin.Inside s.resolution
    simp only [Position.Inside, Position.origin]
    omega
  rw [checkWellFormed_start h, checkPlace_founder, checkGrounded_start h,
    if_neg (not_not_intro hplace), matrix_of_initial h, Matrix.get_empty]
  rfl

/-- A session starts from every pair of models of one size. Its first state makes sense if and only
if the origin is a void voxel of the grid and nothing floats, as it is when there is no matter yet.
Else the check names the first of these that fails, and no session takes the state. -/
theorem checkWellFormed_of_initial (h : initial source target = .ok s) :
    (∀ rules, Session.create source target rules = .ok (.ofState s rules)) ∧
      s.checkWellFormed =
        (if ¬s.matrix.Holds Position.origin then
          .error (.botOutOfBounds BotId.first Position.origin)
        else if s.matrix.get Position.origin then
          .error (.botInsideMatter BotId.first Position.origin)
        else if 0 < s.matrix.floatingCount then .error (.ungrounded s.matrix.floatingCount)
        else .ok ()) ∧
      (source = none → 0 < s.resolution → s.checkWellFormed = .ok ()) ∧
      ∀ e : Session, e.setState s = s.checkWellFormed.map fun _ => e.restored s := by
  refine ⟨fun rules => ?_, ?_, ?_, fun e => Session.setState_eq e s⟩
  · rw [Session.create, h]
    rfl
  · rw [checkWellFormed_start h, checkPlace_founder, checkGrounded_start h]
    by_cases hholds : s.matrix.Holds Position.origin
    · rw [if_neg (not_not_intro hholds), if_neg (not_not_intro hholds)]
      cases s.matrix.get Position.origin <;> rfl
    · rw [if_pos hholds, if_pos hholds]
      rfl
  · rintro rfl hpos
    exact checkWellFormed_of_building h hpos

/-- A grid of side 3 with one full voxel, which floats in the middle. -/
def adrift : Matrix := (Matrix.empty 3).set ⟨1, 1, 1⟩ true

theorem checkWellFormed_adrift :
    initial (some adrift) none = .ok (start adrift (Matrix.empty 3)) ∧
      (start adrift (Matrix.empty 3)).checkWellFormed = .error (.ungrounded 1) ∧
      ∀ e : Session, e.setState (start adrift (Matrix.empty 3)) = .error (.ungrounded 1) := by
  have hinitial : initial (some adrift) none = .ok (start adrift (Matrix.empty 3)) := rfl
  obtain ⟨-, hcheck, -, hset⟩ := checkWellFormed_of_initial hinitial
  have hfloats : (start adrift (Matrix.empty 3)).checkWellFormed = .error (.ungrounded 1) := by
    rw [hcheck]
    decide +kernel
  refine ⟨hinitial, hfloats, fun e => ?_⟩
  rw [hset, hfloats]
  rfl

/-- A grid of side 2 with matter where the first bot is to stand. -/
def occupied : Matrix := (Matrix.empty 2).set Position.origin true

/-- A session starts with its first bot in matter, and does not take its own first state. -/
theorem initial_unchecked :
    ∃ e, Session.create (some occupied) none {} = .ok e ∧
      e.state.checkWellFormed = .error (.botInsideMatter BotId.first Position.origin) ∧
      e.setState e.state = .error (.botInsideMatter BotId.first Position.origin) := by
  have hinside : (start occupied (Matrix.empty 2)).checkWellFormed =
      .error (.botInsideMatter BotId.first Position.origin) := by
    rw [start_eq]
    decide +kernel
  refine ⟨.ofState (start occupied (Matrix.empty 2)) {}, rfl, hinside, ?_⟩
  rw [Session.setState_eq]
  show (start occupied (Matrix.empty 2)).checkWellFormed.map _ = _
  rw [hinside]
  rfl

end State

end VoxelSwarm
