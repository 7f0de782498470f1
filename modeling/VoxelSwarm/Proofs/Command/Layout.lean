import Mathlib.Algebra.Order.Ring.Int
import Mathlib.Data.List.Basic
import VoxelSwarm.Proofs.Command.RoundTrip

/-!
# The layout of commands

Reading and writing a command agree bit by bit. `Decoded` lists what bytes of the right number stand
for, kind by kind; `width` is that number. Such bytes stand for a command unless they are a move
that leaves an axis open (`decode_eq_none_iff`), and if its arguments belong to their classes, they
are the bytes that the command is written as, up to five bits of a straight move that have no
meaning (`bytes_of_decode`).
-/

namespace VoxelSwarm

namespace Command

open Displacement

variable {byte : UInt8} {operands : List UInt8}

/-- The number of bytes that a command takes: the three reserved bytes stand alone, and below them
the three low bits tell (void and fill of a box, void, fill, moves, fission, the two fusions). -/
def width (byte : UInt8) : Nat :=
  if 253 ≤ byte.toNat then 1 else [4, 4, 1, 1, 2, 2, 1, 1].getD (byte.toNat % 8) 0

/-- The first byte of a move with selector zero, which is no axis: that of its only leg when it is
straight, or of one of its two legs when it is bent. -/
def OpenAxis (byte : UInt8) : Prop :=
  byte.toNat % 8 = 4 ∧
    (byte.toNat / 16 % 4 = 0 ∨ byte.toNat / 8 % 2 = 1 ∧ byte.toNat / 64 = 0)

instance (byte : UInt8) : Decidable (OpenAxis byte) :=
  inferInstanceAs (Decidable (_ ∧ (_ ∨ _ ∧ _)))

/-- What the bytes of one command stand for, kind by kind. -/
inductive Decoded : UInt8 → List UInt8 → Option Command → Prop
  | halt : Decoded 255 [] (some .halt)
  | wait : Decoded 254 [] (some .wait)
  | flip : Decoded 253 [] (some .flip)
  | gvoid {byte : UInt8} (x y z : UInt8) (tail : byte.toNat % 8 = 0) :
    Decoded byte [x, y, z] (some (.gvoid (ofNearCode (byte.toNat / 8)) (ofFarBytes x y z)))
  | gfill {byte : UInt8} (x y z : UInt8) (tail : byte.toNat % 8 = 1) :
    Decoded byte [x, y, z] (some (.gfill (ofNearCode (byte.toNat / 8)) (ofFarBytes x y z)))
  | void {byte : UInt8} (tail : byte.toNat % 8 = 2) :
    Decoded byte [] (some (.void (ofNearCode (byte.toNat / 8))))
  | fill {byte : UInt8} (tail : byte.toNat % 8 = 3) :
    Decoded byte [] (some (.fill (ofNearCode (byte.toNat / 8))))
  | move {byte : UInt8} (operand : UInt8) (tail : byte.toNat % 8 = 4) :
    Decoded byte [operand] (decodeMove byte.toNat operand.toNat)
  | fission {byte : UInt8} (m : UInt8) (tail : byte.toNat % 8 = 5) :
    Decoded byte [m] (some (.fission (ofNearCode (byte.toNat / 8)) m))
  | fusionS {byte : UInt8} (tail : byte.toNat % 8 = 6) :
    Decoded byte [] (some (.fusionS (ofNearCode (byte.toNat / 8))))
  | fusionP {byte : UInt8} (tail : byte.toNat % 8 = 7) :
    Decoded byte [] (some (.fusionP (ofNearCode (byte.toNat / 8))))

theorem eq_reserved_or_lt (byte : UInt8) :
    byte = 255 ∨ byte = 254 ∨ byte = 253 ∨ byte.toNat < 253 := by
  have hlt := byte.toNat_lt
  have hreserved : ∀ n : UInt8, byte.toNat = n.toNat → byte = n := fun n => UInt8.toNat_inj.1
  rcases Nat.lt_or_ge byte.toNat 253 with h | h
  · exact .inr (.inr (.inr h))
  · obtain h | h | h : byte.toNat = 255 ∨ byte.toNat = 254 ∨ byte.toNat = 253 := by omega
    · exact .inl (hreserved 255 h)
    · exact .inr (.inl (hreserved 254 h))
    · exact .inr (.inr (.inl (hreserved 253 h)))

theorem decoded (h : operands.length = operandCount byte) :
    Decoded byte operands (decode byte operands) := by
  obtain rfl | rfl | rfl | hbyte := eq_reserved_or_lt byte
  · obtain rfl := List.length_eq_zero_iff.1 h
    exact .halt
  · obtain rfl := List.length_eq_zero_iff.1 h
    exact .wait
  · obtain rfl := List.length_eq_zero_iff.1 h
    exact .flip
  · have hfree := not_reserved hbyte
    have htail : byte.toNat % 8 < 8 := Nat.mod_lt _ (by decide)
    simp only [operandCount, hfree, or_self, if_false] at h
    simp only [decode, hfree, if_false]
    generalize ht : byte.toNat % 8 = tail at h htail ⊢
    obtain rfl | rfl | rfl | rfl | rfl | rfl | rfl | rfl : tail = 0 ∨ tail = 1 ∨ tail = 2 ∨
      tail = 3 ∨ tail = 4 ∨ tail = 5 ∨ tail = 6 ∨ tail = 7 := by omega
    · obtain ⟨x, y, z, rfl⟩ := List.length_eq_three.1 h
      exact .gvoid x y z ht
    · obtain ⟨x, y, z, rfl⟩ := List.length_eq_three.1 h
      exact .gfill x y z ht
    · obtain rfl := List.length_eq_zero_iff.1 h
      exact .void ht
    · obtain rfl := List.length_eq_zero_iff.1 h
      exact .fill ht
    · obtain ⟨operand, rfl⟩ := List.length_eq_one_iff.1 h
      exact .move operand ht
    · obtain ⟨m, rfl⟩ := List.length_eq_one_iff.1 h
      exact .fission m ht
    · obtain rfl := List.length_eq_zero_iff.1 h
      exact .fusionS ht
    · obtain rfl := List.length_eq_zero_iff.1 h
      exact .fusionP ht

theorem width_eq (byte : UInt8) : width byte = operandCount byte + 1 := by
  obtain rfl | rfl | rfl | hbyte := eq_reserved_or_lt byte
  · rfl
  · rfl
  · rfl
  · have hfree := not_reserved hbyte
    have htail : byte.toNat % 8 < 8 := Nat.mod_lt _ (by decide)
    simp only [width, operandCount, hfree, or_self, if_false, Nat.not_le.2 hbyte]
    generalize byte.toNat % 8 = tail at htail ⊢
    revert tail
    decide

theorem width_cases (byte : UInt8) : width byte = 1 ∨ width byte = 2 ∨ width byte = 4 := by
  have htail : byte.toNat % 8 < 8 := Nat.mod_lt _ (by decide)
  rw [width]
  split
  · exact .inl rfl
  · generalize byte.toNat % 8 = tail at htail ⊢
    revert tail
    decide

theorem axis_ofSelector?_eq_none_iff {code : Nat} :
    Axis.ofSelector? code = none ↔ code % 4 = 0 := by
  have hlt : code % 4 < 4 := Nat.mod_lt _ (by decide)
  rw [Axis.ofSelector?]
  generalize code % 4 = selector at hlt ⊢
  revert selector
  decide

theorem decodeMove_eq_none_iff {first operand : Nat} (h : first < 256) :
    decodeMove first operand = none ↔
      first / 16 % 4 = 0 ∨ first / 8 % 2 = 1 ∧ first / 64 = 0 := by
  have hhigh : first / 64 % 4 = 0 ↔ first / 64 = 0 := by omega
  rw [decodeMove, ← hhigh, ← axis_ofSelector?_eq_none_iff, ← axis_ofSelector?_eq_none_iff]
  split
  · next hflag => simp [ofSelector?, hflag]
  · next hflag =>
    have hflag : first / 8 % 2 = 1 := by omega
    simp only [ofSelector?, hflag, true_and]
    cases Axis.ofSelector? (first / 16) <;> cases Axis.ofSelector? (first / 64) <;> simp

/-- Bytes of the right number stand for nothing only if they are a move with an open axis. -/
theorem decode_eq_none_iff (h : operands.length = operandCount byte) :
    decode byte operands = none ↔ OpenAxis byte := by
  have hdecoded := decoded h
  generalize decode byte operands = result at hdecoded
  cases hdecoded with
  | halt | wait | flip => decide
  | move operand tail =>
    rw [decodeMove_eq_none_iff byte.toNat_lt, OpenAxis]
    exact (and_iff_right tail).symm
  | _ => simp_all [OpenAxis]

/-! ## Arguments -/

/-- The argument is outside its class, and those before it are not. -/
def Refuses (c : Command) (cause : CommandError) : Prop :=
  cause.command = c.name ∧ ¬cause.expected.Admits cause.argument ∧
    ∃ before after, c.arguments = before ++ (cause.expected, cause.argument) :: after ∧
      ∀ a ∈ before, a.1.Admits a.2

theorem check_eq_error_iff {c : Command} {cause : CommandError} :
    c.check = .error cause ↔ c.Refuses cause := by
  have hfind : c.check = .error cause ↔ cause.command = c.name ∧
      c.arguments.find? (fun a => ¬a.1.Admits a.2) = some (cause.expected, cause.argument) := by
    obtain ⟨command, expected, argument⟩ := cause
    rw [check]
    split
    · next heq =>
      rw [heq]
      simp [eq_comm]
    · next heq =>
      rw [heq]
      simp
  rw [hfind, Refuses, List.find?_eq_some_iff_append]
  simp

theorem check_cases (c : Command) : c.check = .ok () ∨ ∃ cause, c.check = .error cause := by
  cases c.check with
  | ok u => exact .inl rfl
  | error cause => exact .inr ⟨cause, rfl⟩

/-! ## Writing what was read -/

/-- The bytes of a command without the bits that have no meaning: a straight move has two of them in
its first byte and three in its second, and no other command has any. -/
def meaningful : Command → List UInt8 → List UInt8
  | .smove _, [first, second] => [first &&& 0b00111111, second &&& 0b00011111]
  | _, part => part

@[simp] theorem length_meaningful (c : Command) (part : List UInt8) :
    (c.meaningful part).length = part.length := by
  unfold meaningful
  split <;> rfl

end Command

theorem Axis.selector_of_ofSelector? {a : Axis} {code : Nat} (h : ofSelector? code = some a) :
    a.selector = code % 4 := by
  rw [ofSelector?] at h
  split at h
  · next heq => exact Option.some.inj h ▸ heq.symm
  · next heq => exact Option.some.inj h ▸ heq.symm
  · next heq => exact Option.some.inj h ▸ heq.symm
  · cases h

namespace Displacement

theorem nearCode_ofNearCode {code : Nat} (h : (ofNearCode code).Near) :
    (ofNearCode code).nearCode = code := by
  have := h.bounds
  simp only [ofNearCode, nearCode] at *
  omega

theorem farBytes_ofFarBytes (x y z : UInt8) : (ofFarBytes x y z).farBytes = [x, y, z] := by
  simp [farBytes, ofFarBytes, raise]

variable {d : Displacement} {code raised bias : Nat}

theorem selector_of_ofSelector? (h : ofSelector? code raised bias = some d) (hlinear : d.Linear) :
    d.selector = code % 4 ∧ d.magnitude bias = raised := by
  obtain ⟨a, ha, rfl⟩ := Option.map_eq_some_iff.1 h
  have hv : (raised : Int) - bias ≠ 0 := by
    intro hzero
    rw [hzero, along_zero] at hlinear
    exact absurd hlinear (by decide)
  refine ⟨(selector_along hv).trans (Axis.selector_of_ofSelector? ha), ?_⟩
  rw [magnitude_along hv, raise]
  omega

end Displacement

namespace Command

open Displacement

variable {byte operand : UInt8} {operands : List UInt8} {c : Command}

theorem nearByte_ofNearCode {tail : Nat} (h : (ofNearCode (byte.toNat / 8)).Near)
    (htail : byte.toNat % 8 = tail) : nearByte (ofNearCode (byte.toNat / 8)) tail = byte := by
  have hcode : byte.toNat / 8 * 8 + tail = byte.toNat := by omega
  rw [nearByte, nearCode_ofNearCode h, hcode]
  exact UInt8.ofNat_toNat

theorem and_lowBits (byte : UInt8) {k : Nat} (hk : k < 8) :
    byte &&& (2 ^ k - 1).toUInt8 = (byte.toNat % 2 ^ k).toUInt8 := by
  have hpow : 2 ^ k < 2 ^ 8 := Nat.pow_lt_pow_right (by decide) hk
  have hmask : (2 ^ k - 1).toUInt8.toNat = 2 ^ k - 1 :=
    UInt8.toNat_ofNat_of_lt' (by simp only [UInt8.size]; omega)
  have hmod : byte.toNat % 2 ^ k < UInt8.size :=
    Nat.lt_of_le_of_lt (Nat.mod_le ..) byte.toNat_lt
  apply UInt8.toNat_inj.1
  rw [UInt8.toNat_and, hmask, Nat.and_two_pow_sub_one_eq_mod, UInt8.toNat_ofNat_of_lt' hmod]

theorem bytes_of_decodeMove (htail : byte.toNat % 8 = 4)
    (h : decodeMove byte.toNat operand.toNat = some c) (hvalid : c.Valid) :
    c.bytes = c.meaningful [byte, operand] := by
  rw [decodeMove] at h
  split at h
  · next hflag =>
    obtain ⟨lld, hlld, rfl⟩ := Option.map_eq_some_iff.1 h
    obtain ⟨hlinear, -⟩ : lld.LongLinear := hvalid (.longLinear, lld) (by simp [arguments])
    obtain ⟨hselector, hmagnitude⟩ := selector_of_ofSelector? hlld hlinear
    have hfirst : byte.toNat / 16 % 4 * 16 + 4 = byte.toNat % 2 ^ 6 := by omega
    have hsecond : operand.toNat % 32 = operand.toNat % 2 ^ 5 := by omega
    rw [bytes, hselector, hmagnitude, hfirst, hsecond, ← and_lowBits byte (by decide),
      ← and_lowBits operand (by decide)]
    rfl
  · next hflag =>
    obtain ⟨sld₁, hsld₁, hrest⟩ := Option.bind_eq_some_iff.1 h
    obtain ⟨sld₂, hsld₂, hmove⟩ := Option.bind_eq_some_iff.1 hrest
    obtain rfl := Option.some.inj hmove
    obtain ⟨hlinear₁, -⟩ : sld₁.ShortLinear := hvalid (.shortLinear, sld₁) (by simp [arguments])
    obtain ⟨hlinear₂, -⟩ : sld₂.ShortLinear := hvalid (.shortLinear, sld₂) (by simp [arguments])
    obtain ⟨hselector₁, hmagnitude₁⟩ := selector_of_ofSelector? hsld₁ hlinear₁
    obtain ⟨hselector₂, hmagnitude₂⟩ := selector_of_ofSelector? hsld₂ hlinear₂
    have hbyte := byte.toNat_lt
    have hfirst : byte.toNat / 64 % 4 * 64 + byte.toNat / 16 % 4 * 16 + 12 = byte.toNat := by omega
    have hsecond : operand.toNat / 16 * 16 + operand.toNat % 16 = operand.toNat := by omega
    rw [bytes, hselector₁, hmagnitude₁, hselector₂, hmagnitude₂, hfirst, hsecond]
    simp [meaningful]

/-- Bytes that stand for a command whose arguments belong to their classes are the bytes that it is
written as. -/
theorem bytes_of_decode (hlength : operands.length = operandCount byte)
    (h : decode byte operands = some c) (hvalid : c.Valid) :
    c.bytes = c.meaningful (byte :: operands) := by
  have hdecoded := decoded hlength
  rw [h] at hdecoded
  generalize hresult : some c = result at hdecoded
  cases hdecoded with
  | move operand tail => exact bytes_of_decodeMove tail hresult.symm hvalid
  | halt | wait | flip =>
    obtain rfl := Option.some.inj hresult
    rfl
  | gvoid x y z tail | gfill x y z tail =>
    obtain rfl := Option.some.inj hresult
    have hnear : (ofNearCode (byte.toNat / 8)).Near := hvalid (.near, _) List.mem_cons_self
    simp [bytes, meaningful, nearByte_ofNearCode hnear tail, farBytes_ofFarBytes]
  | void tail | fill tail | fission m tail | fusionS tail | fusionP tail =>
    obtain rfl := Option.some.inj hresult
    have hnear : (ofNearCode (byte.toNat / 8)).Near := hvalid (.near, _) List.mem_cons_self
    simp [bytes, meaningful, nearByte_ofNearCode hnear tail]

end Command

end VoxelSwarm
