import Mathlib.Algebra.Order.Ring.Int
import VoxelSwarm.Json.Decode

/-!
# What decoders give

Whatever a text has been read as, a decoder of numbers gives one in its range (`natural_yields`,
`signed_yields`), a decoder of lists gives lists of what its items decode to (`list_yields`), and a
decoder of records gives records that all fields have kept in shape (`record_yields`). These hold of
broken readings too, of which decoders give nothing.
-/

namespace VoxelSwarm.Json

theorem bind_eq_ok {ε α β : Type} {x : Except ε α} {f : α → Except ε β} {b : β}
    (h : x >>= f = .ok b) : ∃ a, x = .ok a ∧ f a = .ok b := by
  cases x with
  | error e => cases h
  | ok a => exact ⟨a, rfl, h⟩

theorem mapError_eq_ok {ε ε' α : Type} {x : Except ε α} {f : ε → ε'} {a : α}
    (h : x.mapError f = .ok a) : x = .ok a := by
  cases x with
  | error e => cases h
  | ok b => exact congrArg _ (Except.ok.inj h)

namespace Decoder

variable {α : Type} {P : α → Prop}

/-- Whatever the decoder gives has the property. -/
def Yields (decoder : Decoder α) (P : α → Prop) : Prop := ∀ r x, decoder r = .ok x → P x

theorem Yields.map {β : Type} {Q : β → Prop} {decoder : Decoder α} {f : α → β}
    (h : decoder.Yields P) (hf : ∀ x, P x → Q (f x)) :
    Yields (fun r => do return f (← decoder r)) Q := by
  intro r y hy
  obtain ⟨x, hx, hfx⟩ := bind_eq_ok hy
  exact Except.ok.inj hfx ▸ hf x (h r x hx)

theorem wrongType_ne_ok (expected : String) (r : Reading) (x : α) :
    wrongType expected r ≠ .ok x := by
  intro h
  obtain ⟨found, -, hthrow⟩ := bind_eq_ok h
  cases hthrow

/-! ## Numbers -/

theorem checkRange_eq_ok {least greatest n m : Int}
    (h : checkRange least greatest expected n = .ok m) : least ≤ m ∧ m ≤ greatest := by
  rw [checkRange] at h
  split at h
  · next hrange => exact Except.ok.inj h ▸ hrange
  · cases h

theorem integer_yields (least greatest : Int) (expected : String) :
    (integer least greatest expected).Yields fun n => least ≤ n ∧ n ≤ greatest := by
  intro r n h
  unfold integer at h
  split at h
  · exact checkRange_eq_ok h
  · exact checkRange_eq_ok h
  · exact absurd h (wrongType_ne_ok expected _ n)

theorem natural_yields (bits : Nat) (expected : String) :
    (natural bits expected).Yields (· < 2 ^ bits) := by
  refine (integer_yields 0 (Nat.pow 2 bits - 1) expected).map fun n hn => ?_
  have hpow : Nat.pow 2 bits = 2 ^ bits := rfl
  omega

theorem signed_yields (bits : Nat) (expected : String) :
    (signed bits expected).Yields fun n => -(2 : Int) ^ (bits - 1) ≤ n ∧ n < 2 ^ (bits - 1) := by
  intro r n h
  have hrange := integer_yields _ _ expected r n h
  have hpow : ((Nat.pow 2 (bits - 1) : Nat) : Int) = 2 ^ (bits - 1) := by simp
  rw [hpow] at hrange
  omega

/-! ## Lists -/

theorem itemsFrom_yields {item : Decoder α} (hitem : item.Yields P) {rs : List Reading}
    {done xs : List α} (hdone : ∀ x ∈ done, P x) (h : itemsFrom item done rs = .ok xs) :
    ∀ x ∈ xs, P x := by
  induction rs generalizing done with
  | nil =>
    obtain rfl := Except.ok.inj h
    simpa using hdone
  | cons r rs ih =>
    obtain ⟨x, hx, hrest⟩ := bind_eq_ok h
    exact ih (List.forall_mem_cons.2 ⟨hitem r x hx, hdone⟩) hrest

theorem list_yields {item : Decoder α} (hitem : item.Yields P) :
    (list item).Yields fun xs => ∀ x ∈ xs, P x := by
  intro r xs h
  cases r with
  | array items ending =>
    obtain ⟨values, hvalues, hrest⟩ := bind_eq_ok h
    obtain ⟨-, -, hxs⟩ := bind_eq_ok hrest
    obtain rfl := Except.ok.inj hxs
    exact itemsFrom_yields hitem (List.forall_mem_nil _) hvalues
  | _ => exact (wrongType_ne_ok _ _ _ h).elim

/-! ## Records -/

section Records

variable {ρ : Type} {P : ρ → Prop} {fields all : List (Field ρ)}

/-- Setting the field keeps the property. -/
def Field.Keeps (field : Field ρ) (P : ρ → Prop) : Prop :=
  ∀ r s t, P s → field.set r s = .ok t → P t

theorem Field.Keeps.of_yields {name : String} {decoder : Decoder α} {Q : α → Prop}
    {put : ρ → α → ρ} (h : decoder.Yields Q) (hput : ∀ s x, P s → Q x → P (put s x)) :
    Field.Keeps ⟨name, fun r s => do return put s (← decoder r)⟩ P := by
  intro r s t hs ht
  obtain ⟨x, hx, hset⟩ := bind_eq_ok ht
  exact Except.ok.inj hset ▸ hput s x hs (h r x hx)

theorem Field.Keeps.of_decoder {name : String} {decoder : Decoder α} {put : ρ → α → ρ}
    (hput : ∀ s x, P s → P (put s x)) :
    Field.Keeps ⟨name, fun r s => do return put s (← decoder r)⟩ P :=
  .of_yields (Q := fun _ => True) (fun _ _ _ => trivial) fun s x hs _ => hput s x hs

theorem setMembers_keeps (hkeeps : ∀ field ∈ fields, field.Keeps P)
    {members : List (Reading × Reading)} {seen names : List String} {s t : ρ} (hs : P s)
    (h : setMembers fields seen s members = .ok (names, t)) : P t := by
  induction members generalizing seen s with
  | nil =>
    obtain ⟨-, rfl⟩ := Prod.mk.inj (Except.ok.inj h)
    exact hs
  | cons member members ih =>
    obtain ⟨key, value⟩ := member
    obtain ⟨name, -, hrest⟩ := bind_eq_ok h
    split at hrest
    · exact ih hs hrest
    · next field hfind =>
      split at hrest
      · cases hrest
      · obtain ⟨next, hset, hrest⟩ := bind_eq_ok hrest
        exact ih (hkeeps field (List.mem_of_find?_eq_some hfind) value s next hs hset) hrest

theorem setItems_keeps (hkeeps : ∀ field ∈ fields, field.Keeps P) {items : List Reading} {s t : ρ}
    {rest : List (Field ρ) × List Reading} (hs : P s)
    (h : setItems fields items s = .ok (t, rest)) : P t := by
  induction fields generalizing items s with
  | nil =>
    obtain ⟨rfl, -⟩ := Prod.mk.inj (Except.ok.inj h)
    exact hs
  | cons field fields ih =>
    obtain ⟨hfirst, hothers⟩ := List.forall_mem_cons.1 hkeeps
    cases items with
    | nil =>
      obtain ⟨rfl, -⟩ := Prod.mk.inj (Except.ok.inj h)
      exact hs
    | cons item items =>
      obtain ⟨next, hset, hrest⟩ := bind_eq_ok h
      exact ih hothers (hfirst item s next hs hset) hrest

/-- A record has what a blank one has and all fields keep. -/
theorem record_yields {name : String} {blank : ρ} (hblank : P blank)
    (hkeeps : ∀ field ∈ fields, field.Keeps P) : (record name fields blank).Yields P := by
  intro r t h
  cases r with
  | object members ending =>
    obtain ⟨⟨seen, value⟩, hmembers, hrest⟩ := bind_eq_ok h
    obtain ⟨-, -, hrest⟩ := bind_eq_ok hrest
    split at hrest
    · cases hrest
    · obtain rfl := Except.ok.inj hrest
      exact setMembers_keeps hkeeps hblank hmembers
  | array items ending =>
    obtain ⟨⟨value, unset, extra⟩, hitems, hrest⟩ := bind_eq_ok h
    have hvalue := setItems_keeps hkeeps hblank hitems
    simp only at hrest
    split at hrest
    · obtain ⟨-, -, hrest⟩ := bind_eq_ok hrest
      split at hrest
      · exact Except.ok.inj hrest ▸ hvalue
      · cases hrest
    · cases hrest
  | _ => exact (wrongType_ne_ok _ _ _ h).elim

end Records

theorem run_yields {decoder : Decoder α} {text : List UInt8} {x : α} (h : decoder.Yields P)
    (hrun : decoder.run text = .ok x) : P x := by
  obtain ⟨value, hvalue, hrest⟩ := bind_eq_ok hrun
  obtain ⟨-, -, hx⟩ := bind_eq_ok hrest
  exact Except.ok.inj hx ▸ h _ value hvalue

end Decoder

end VoxelSwarm.Json
