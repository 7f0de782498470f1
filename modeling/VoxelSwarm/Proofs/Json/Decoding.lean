import Mathlib.Algebra.Order.Ring.Int
import Mathlib.Data.List.Nodup
import VoxelSwarm.Json.Decode
import VoxelSwarm.Json.Document

/-!
# Decoders give back what was written

Laws of the decoders on readings of values: a number is given back if it is in the range of its
decoder (`natural_nat`, `signed_int`), a list if its items are (`list_array`), and a record if its
fields are, whatever their number (`record_object`).
-/

namespace VoxelSwarm.Json

namespace Decoder

variable {n : Nat} {bits : Nat} {expected : String}

/-! ## Numbers -/

theorem integer_int {n least greatest : Int} (h : least ≤ n ∧ n ≤ greatest) :
    integer least greatest expected (Json.int n).reading = .ok n := by
  rw [reading, numberOfInt]
  split
  · next hn =>
    have hvalue : (n.toNat : Int) = n := Int.toNat_of_nonneg hn
    simp only [integer]
    rw [hvalue, checkRange, if_pos h]
  · simp only [integer]
    rw [checkRange, if_pos h]

theorem natural_nat (h : n < 2 ^ bits) : natural bits expected (Json.nat n).reading = .ok n := by
  have hpow : Nat.pow 2 bits = 2 ^ bits := rfl
  rw [natural, Json.nat, integer_int (by omega)]
  rfl

theorem signed_int {n : Int} (h : -(2 : Int) ^ (bits - 1) ≤ n ∧ n < 2 ^ (bits - 1)) :
    signed bits expected (Json.int n).reading = .ok n := by
  have hpow : ((Nat.pow 2 (bits - 1) : Nat) : Int) = 2 ^ (bits - 1) := by simp
  rw [signed, integer_int (by rw [hpow]; omega)]

theorem integer32_int {n : Int} (h : -(2 : Int) ^ 31 ≤ n ∧ n < 2 ^ 31) :
    integer32 (Json.int n).reading = .ok n :=
  signed_int h

theorem integer64_int {n : Int} (h : -(2 : Int) ^ 63 ≤ n ∧ n < 2 ^ 63) :
    integer64 (Json.int n).reading = .ok n :=
  signed_int h

theorem byte_nat (byte : UInt8) : Decoder.byte (Json.nat byte.toNat).reading = .ok byte := by
  rw [Decoder.byte, natural_nat byte.toNat_lt]
  exact congrArg Except.ok (UInt8.ofNat_toNat)

/-! ## Lists -/

theorem itemsFrom_map {α : Type} {item : Decoder α} {toJson : α → Json} {xs : List α}
    (h : ∀ x ∈ xs, item (toJson x).reading = .ok x) (done : List α) :
    itemsFrom item done (itemReadings (xs.map toJson)) = .ok (done.reverse ++ xs) := by
  induction xs generalizing done with
  | nil => simp [itemReadings, itemsFrom]
  | cons x xs ih =>
    obtain ⟨hx, hxs⟩ := List.forall_mem_cons.1 h
    rw [List.map_cons, itemReadings, itemsFrom, hx]
    refine (ih hxs (x :: done)).trans ?_
    rw [List.reverse_cons, List.append_assoc]
    rfl

theorem list_array {α : Type} {item : Decoder α} {toJson : α → Json} {xs : List α}
    (h : ∀ x ∈ xs, item (toJson x).reading = .ok x) :
    list item (Json.array (xs.map toJson)).reading = .ok xs := by
  rw [reading, list, itemsFrom_map h]
  rfl

/-! ## Records -/

variable {ρ : Type} {fields all : List (Field ρ)} {seen : List String} {s t : ρ}
  {members : List (String × Json)}

theorem find?_name (hnodup : (fields.map (·.name)).Nodup) {field : Field ρ} (h : field ∈ fields) :
    fields.find? (·.name == field.name) = some field := by
  cases hfound : fields.find? (·.name == field.name) with
  | none => simpa using List.find?_eq_none.1 hfound field h
  | some other =>
    have hname : other.name = field.name := by simpa using List.find?_some hfound
    rw [List.inj_on_of_nodup_map hnodup (List.mem_of_find?_eq_some hfound) h hname]

theorem setMembers_cons {field : Field ρ} {v : Json} {rest : List (Reading × Reading)}
    (hfind : all.find? (·.name == field.name) = some field) (hnew : field.name ∉ seen)
    (hset : field.set v.reading s = .ok t) :
    setMembers all seen s ((.string (.ok field.name), v.reading) :: rest) =
      setMembers all (field.name :: seen) t rest := by
  have hcontains : seen.contains field.name = false := by simpa using hnew
  rw [setMembers]
  simp only [keyName, bind, Except.bind, hfind, hcontains, Bool.false_eq_true, if_false, hset]

theorem setMembers_of_setItems (all : List (Field ρ)) (seen : List String)
    (hnames : members.map (·.1) = fields.map (·.name)) (hnodup : (fields.map (·.name)).Nodup)
    (hfind : ∀ field ∈ fields, all.find? (·.name == field.name) = some field)
    (hnew : ∀ field ∈ fields, field.name ∉ seen)
    (hset : setItems fields (itemReadings (members.map (·.2))) s = .ok (t, [], [])) :
    setMembers all seen s (memberReadings members) =
      .ok ((fields.map (·.name)).reverse ++ seen, t) := by
  induction fields generalizing members seen s with
  | nil =>
    obtain rfl := List.map_eq_nil_iff.1 hnames
    obtain rfl : s = t := congrArg Prod.fst (Except.ok.inj hset)
    rfl
  | cons field fields ih =>
    obtain ⟨⟨key, v⟩, rest, rfl, rfl, hrest⟩ := List.map_eq_cons_iff.1 hnames
    obtain ⟨hname, hnodup⟩ := List.nodup_cons.1 hnodup
    obtain ⟨hfirst, hothers⟩ := List.forall_mem_cons.1 hfind
    obtain ⟨hunseen, hunseens⟩ := List.forall_mem_cons.1 hnew
    rw [List.map_cons, itemReadings, setItems] at hset
    cases hvalue : field.set v.reading s with
    | error e =>
      rw [hvalue] at hset
      cases hset
    | ok next =>
      rw [hvalue] at hset
      have hunseen' : ∀ other ∈ fields, other.name ∉ field.name :: seen := fun other hother => by
        have hne : other.name ≠ field.name := fun heq =>
          hname (List.mem_map.2 ⟨other, hother, heq⟩)
        simpa [hne] using hunseens other hother
      have htail := ih (field.name :: seen) hrest hnodup hothers hunseen' hset
      rw [memberReadings, setMembers_cons hfirst hunseen hvalue, htail, List.map_cons,
        List.reverse_cons, List.append_assoc]
      rfl

/-- An object whose members are the fields of a record in order is read as the record that the
fields make of their values. -/
theorem record_object {name : String} (hnames : members.map (·.1) = fields.map (·.name))
    (hnodup : (fields.map (·.name)).Nodup)
    (hset : setItems fields (itemReadings (members.map (·.2))) s = .ok (t, [], [])) :
    record name fields s (Json.object members).reading = .ok t := by
  have hmembers := setMembers_of_setItems fields [] hnames hnodup
    (fun field => find?_name hnodup) (fun _ _ => List.not_mem_nil) hset
  have hmissing : missing? fields ((fields.map (·.name)).reverse ++ []) = none := by
    rw [missing?, List.find?_eq_none.2, Option.map_none]
    intro field hfield
    simpa using ⟨field, hfield, rfl⟩
  rw [reading, record, hmembers]
  simp only [bind, Except.bind, checkEnding, hmissing]
  rfl

end Decoder

end VoxelSwarm.Json
