import VoxelSwarm.Proofs.Command.RoundTrip
import VoxelSwarm.Proofs.Step.Atomic

/-!
# A list of commands and its trace

A list of commands and the trace that they are written to drive a state alike. The cursors in them
move at different speeds, by one command and by the bytes of that command, but they have the same
commands before them (`Carries`), whatever the bots that ask for them. So a step that takes its
commands from the list and one that takes them from the trace come out alike and leave both cursors
with the same commands before them (`State.runStep_carries`), and this goes on for any number of
steps (`State.runSteps_inStep`). The end is the only place where the two can be told apart: the
error names it, counted in commands or in bytes (`SameStep`).
-/

namespace VoxelSwarm

variable {n N : Nat} {l : CommandList} {r : TraceReader}

/-! ## Cursors -/

/-- The cursors in a list of `n` commands and in a trace of `N` bytes have the same commands before
them. -/
structure Carries (n N : Nat) (l : CommandList) (r : TraceReader) : Prop where
  valid : ∀ c ∈ l.rest, c.check = .ok ()
  unread : r.unread = l.rest.flatMap Command.bytes
  commands : l.offset + l.rest.length = n
  bytes : r.offset + r.unread.length = N

/-- What is read is the same, unless both cursors are at their ends. -/
inductive SameRead (n N : Nat) {α : Type} : Except TraceError α → Except TraceError α → Prop
  | gives (a : α) : SameRead n N (.ok a) (.ok a)
  | ends : SameRead n N (.error (.endOfTrace n)) (.error (.endOfTrace N))

namespace Carries

theorem start {cs : List Command} (h : ∀ c ∈ cs, c.check = .ok ()) :
    Carries cs.length (cs.flatMap Command.bytes).length (CommandList.ofList cs)
      (TraceReader.ofBytes (cs.flatMap Command.bytes)) where
  valid := h
  unread := TraceReader.unread_ofBytes _
  commands := Nat.zero_add _
  bytes := Nat.zero_add _

theorem exhausted_eq (h : Carries n N l r) : l.exhausted = r.exhausted := by
  rw [Bool.eq_iff_iff, TraceReader.exhausted_iff, h.unread, CommandList.exhausted]
  cases hrest : l.rest with
  | nil => simp
  | cons c rest =>
    have hc : c.check = .ok () := h.valid c (by rw [hrest]; exact List.mem_cons_self)
    obtain ⟨byte, operands, hbytes, -⟩ := Command.decode_bytes (Command.check_eq_ok_iff.1 hc)
    rw [List.flatMap_cons, hbytes]
    simp

theorem next (h : Carries n N l r) :
    SameRead n N l.next.1 r.next.1 ∧ Carries n N l.next.2 r.next.2 := by
  cases hrest : l.rest with
  | nil =>
    have hunread : r.unread = [] := by rw [h.unread, hrest, List.flatMap_nil]
    have hlist : l.next = (.error (.endOfTrace n), l) := by
      rw [CommandList.next, hrest, ← h.commands, hrest]
      rfl
    have htrace : r.next = (.error (.endOfTrace N), r) := by
      rw [TraceReader.next_eq, hunread, ← h.bytes, hunread]
      rfl
    rw [hlist, htrace]
    exact ⟨.ends, h⟩
  | cons c rest =>
    have hvalid := h.valid
    have hcommands := h.commands
    have hbytes := h.bytes
    have hunread : r.unread = c.bytes ++ rest.flatMap Command.bytes := by
      rw [h.unread, hrest, List.flatMap_cons]
    rw [hrest, List.forall_mem_cons] at hvalid
    rw [hrest, List.length_cons] at hcommands
    rw [hunread, List.length_append] at hbytes
    have hlist : l.next = (.ok c, ⟨rest, l.offset + 1⟩) := by rw [CommandList.next, hrest]
    rw [hlist, TraceReader.next_of_unread hvalid.1 hunread]
    have hafter : (r.forward c.bytes.length).unread = rest.flatMap Command.bytes := by
      rw [TraceReader.unread_forward, hunread, List.drop_left]
    refine ⟨.gives c, hvalid.2, hafter, ?_, ?_⟩
    · show l.offset + 1 + rest.length = n
      omega
    · rw [hafter, TraceReader.offset_forward]
      omega

end Carries

theorem readPlan_carries (h : Carries n N l r) (ids : List BotId) (plan : Plan) :
    SameRead n N (readPlan ids plan l).1 (readPlan ids plan r).1 ∧
      Carries n N (readPlan ids plan l).2 (readPlan ids plan r).2 := by
  induction ids generalizing plan l r with
  | nil => exact ⟨.gives plan, h⟩
  | cons id ids ih =>
    obtain ⟨hread, hnext⟩ := h.next
    cases hlist : l.next with
    | mk result l' =>
    cases htrace : r.next with
    | mk result' r' =>
    rw [hlist, htrace] at hread hnext
    simp only [readPlan, CommandSource.next, hlist, htrace]
    cases hread with
    | gives c => exact ih hnext (plan.assign id c)
    | ends => exact ⟨.ends, hnext⟩

/-! ## Steps -/

/-- Both steps come out alike, unless both want for a command: then each error names the end of its
own source. -/
inductive SameStep (n N : Nat) :
    Except StepError StepReport → Except StepError StepReport → Prop
  | same (result : Except StepError StepReport) (h : ∀ cause, result ≠ .error (.parse cause)) :
    SameStep n N result result
  | ends : SameStep n N (.error (.parse (.endOfTrace n))) (.error (.parse (.endOfTrace N)))

namespace State

theorem resolveStep_ne_parse (s : State) (rules : Rules) (plan : Plan) (ids : List BotId)
    (cause : TraceError) : (s.resolveStep rules plan ids).1 ≠ .error (.parse cause) := by
  cases hstep : s.resolveStep rules plan ids with
  | mk result t =>
  intro hparse
  obtain rfl : result = .error (.parse cause) := hparse
  rcases resolveStep_cases hstep with ⟨e, hcheck, herror, -⟩ | ⟨-, -, hok | ⟨hfloats, -⟩⟩
  · obtain rfl := Except.error.inj herror
    exact ofPlan_of_checkPlan hcheck
  · cases hok
  · cases hfloats

theorem runStep_carries (s : State) (rules : Rules) (h : Carries n N l r) :
    SameStep n N (s.runStep rules l).1 (s.runStep rules r).1 ∧
      (s.runStep rules l).2.1 = (s.runStep rules r).2.1 ∧
      Carries n N (s.runStep rules l).2.2 (s.runStep rules r).2.2 := by
  obtain ⟨hread, hafter⟩ := readPlan_carries h s.activeIds Plan.empty
  unfold runStep
  cases hlist : readPlan s.activeIds Plan.empty l with
  | mk result l' =>
  cases htrace : readPlan s.activeIds Plan.empty r with
  | mk result' r' =>
  rw [hlist, htrace] at hread hafter
  cases hread with
  | gives plan => exact ⟨.same _ (s.resolveStep_ne_parse rules plan s.activeIds), rfl, hafter⟩
  | ends => exact ⟨.ends, rfl, hafter⟩

/-- Takes `k` steps one after the other from a source, going on also after a step that has failed,
and lists what each of them gives. -/
def runSteps {σ : Type} [CommandSource σ] (s : State) (rules : Rules) :
    Nat → σ → List (Except StepError StepReport × State × σ)
  | 0, _ => []
  | k + 1, src =>
    s.runStep rules src ::
      runSteps (s.runStep rules src).2.1 rules k (s.runStep rules src).2.2

/-- A step from a list and one from a trace come out alike, in the same state, and use their sources
up together. -/
structure InStep (n N : Nat) (x : Except StepError StepReport × State × CommandList)
    (y : Except StepError StepReport × State × TraceReader) : Prop where
  result : SameStep n N x.1 y.1
  state : x.2.1 = y.2.1
  exhausted : x.2.2.exhausted = y.2.2.exhausted

theorem runSteps_inStep (s : State) (rules : Rules) (h : Carries n N l r) (k : Nat) :
    List.Forall₂ (InStep n N) (s.runSteps rules k l) (s.runSteps rules k r) := by
  induction k generalizing s l r with
  | zero => exact .nil
  | succ k ih =>
    obtain ⟨hresult, hstate, hafter⟩ := s.runStep_carries rules h
    unfold runSteps
    refine .cons ⟨hresult, hstate, hafter.exhausted_eq⟩ ?_
    rw [← hstate]
    exact ih _ hafter

end State

end VoxelSwarm
