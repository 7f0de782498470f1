import VoxelSwarm.Text.Natural

/-!
# Natural numbers come back from their digits

`Natural.parse?_toString` says that a number within the limit is read back from its decimal digits,
of which the first is not zero unless the number is (`exists_toDigits`). What else is read as a
number has zeros before them, or a plus sign (`parse?_eq_some_iff`).
-/

namespace VoxelSwarm.Natural

/-- A text spells a number in decimal digits, behind a plus sign or not. -/
def Spells (cs : List Char) (n : Nat) : Prop :=
  ∃ digits, (cs = digits ∨ cs = '+' :: digits) ∧ digits ≠ [] ∧
    (∀ c ∈ digits, c.isDigit = true) ∧ ofDigits digits = n

variable {n limit : Nat} {cs : List Char}

theorem ofDigits_toDigits (n : Nat) : ofDigits (Nat.toDigits 10 n) = n := by
  have hfold : ofDigits = fun cs => Nat.ofDigitChars 10 cs 0 := by
    funext cs
    simp only [ofDigits, Nat.ofDigitChars_eq_foldl, Nat.mul_comm]
    rfl
  rw [hfold]
  exact Nat.ofDigitChars_ten_toDigits

theorem exists_toDigits (h : 0 < n) :
    ∃ d cs, 0 < d ∧ d < 10 ∧ Nat.toDigits 10 n = Nat.digitChar d :: cs := by
  induction n using Nat.strongRecOn with
  | ind n ih =>
    by_cases hn : n < 10
    · exact ⟨n, [], h, hn, Nat.toDigits_of_lt_base hn⟩
    · obtain ⟨d, cs, hpos, hd, hdigits⟩ := ih (n / 10) (by omega) (by omega)
      refine ⟨d, cs ++ [Nat.digitChar (n % 10)], hpos, hd, ?_⟩
      rw [Nat.toDigits_of_base_le (by decide) (Nat.le_of_not_lt hn), hdigits]
      rfl

theorem isDigit_of_mem {c : Char} (h : c ∈ Nat.toDigits 10 n) : c.isDigit = true :=
  Nat.isDigit_of_mem_toDigits (by decide) (by decide) h

theorem spells_toString (n : Nat) : Spells (toString n).toList n :=
  ⟨Nat.toDigits 10 n, .inl Nat.toList_repr, Nat.toDigits_ne_nil, fun _ => isDigit_of_mem,
    ofDigits_toDigits n⟩

/-- What is read as a number spells it, and the number is within the limit. -/
theorem parse?_eq_some_iff : parse? limit cs = some n ↔ Spells cs n ∧ n ≤ limit := by
  have hread (digits : List Char) :
      (if ¬digits.isEmpty ∧ digits.all Char.isDigit ∧ ofDigits digits ≤ limit then
        some (ofDigits digits) else none) = some n ↔
      (digits ≠ [] ∧ (∀ c ∈ digits, c.isDigit = true) ∧ ofDigits digits = n) ∧ n ≤ limit := by
    simp only [Option.ite_none_right_eq_some, Option.some.injEq, List.isEmpty_iff, List.all_eq_true,
      ne_eq]
    constructor
    · rintro ⟨⟨hne, hdigits, hle⟩, rfl⟩
      exact ⟨⟨hne, hdigits, rfl⟩, hle⟩
    · rintro ⟨⟨hne, hdigits, rfl⟩, hle⟩
      exact ⟨⟨hne, hdigits, hle⟩, rfl⟩
  by_cases hsign : ∃ rest, cs = '+' :: rest
  · obtain ⟨rest, rfl⟩ := hsign
    rw [parse?, hread]
    refine and_congr_left fun _ => ⟨fun h => ⟨rest, .inr rfl, h⟩, ?_⟩
    rintro ⟨digits, heq | heq, h⟩
    · -- a plus sign is no digit
      exact absurd (h.2.1 '+' (heq ▸ List.mem_cons_self)) (by decide)
    · exact (List.cons.inj heq).2 ▸ h
  · have hunsigned : ∀ rest, cs = '+' :: rest → False := not_exists.1 hsign
    rw [parse?, hread]
    · refine and_congr_left fun _ => ⟨fun h => ⟨cs, .inl rfl, h⟩, ?_⟩
      rintro ⟨digits, rfl | heq, h⟩
      · exact h
      · exact absurd heq (hunsigned digits)
    · exact hunsigned

theorem parse?_toString (h : n ≤ limit) : parse? limit (toString n).toList = some n :=
  parse?_eq_some_iff.2 ⟨spells_toString n, h⟩

end VoxelSwarm.Natural
