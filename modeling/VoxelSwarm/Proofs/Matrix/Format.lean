import Mathlib.Data.List.GetD
import Mathlib.Data.List.Induction
import VoxelSwarm.Matrix.Model
import VoxelSwarm.Proofs.Matrix.Consistent

/-!
# What the model format admits

Every matrix that is read from a model file (`consistent_of_parse`) or put together from its parts
(`consistent_of_ofParts`) is consistent: its bytes are as many as its side asks for, its padding is
clear, and then the set bits of all bytes are the full voxels (`bitTotal_eq`).
-/

namespace VoxelSwarm.Matrix

variable {m : Matrix} {r n : Nat} {data : Array UInt8}

/-! ## Counting bits -/

theorem foldl_bitCount (l : List UInt8) :
    l.foldl (fun total byte => total + bitCount byte) 0 =
      (List.range (8 * l.length)).countP fun i => (l.getD (i / 8) 0).toNat.testBit (i % 8) := by
  induction l using List.reverseRecOn with
  | nil => rfl
  | append_singleton l byte ih =>
    have hlength : 8 * (l ++ [byte]).length = 8 * l.length + 8 := by
      rw [List.length_append, List.length_singleton]
      omega
    rw [List.foldl_append, ih, List.foldl_cons, List.foldl_nil, hlength, List.range_add,
      List.countP_append, List.countP_map, bitCount]
    congr 1
    · refine List.countP_congr fun i hi => ?_
      have hlt : i / 8 < l.length := by
        have := List.mem_range.1 hi
        omega
      rw [List.getD_append _ _ _ _ hlt]
    · refine List.countP_congr fun k hk => ?_
      have hk8 : k < 8 := List.mem_range.1 hk
      have hdiv : (8 * l.length + k) / 8 = l.length := by omega
      have hmod : (8 * l.length + k) % 8 = k := by omega
      simp [hdiv, hmod]

theorem bitTotal_eq (hsize : data.size = byteCount r)
    (hpadding : ∀ i, volume r ≤ i → bit ⟨r, n, data⟩ i = false) :
    bitTotal data = (List.range (volume r)).countP (bit ⟨r, n, data⟩) := by
  have hbits : bitTotal data = (List.range (8 * data.size)).countP (bit ⟨r, n, data⟩) := by
    rw [bitTotal, ← Array.foldl_toList, foldl_bitCount, Array.length_toList]
    refine List.countP_congr fun i _ => ?_
    simp [bit, List.getD_eq_getElem?_getD, Array.getD_eq_getD_getElem?]
  have hsplit : 8 * data.size = volume r + (8 * data.size - volume r) := by
    rw [hsize, byteCount]
    omega
  have htail : ((List.range (8 * data.size - volume r)).map (volume r + ·)).countP
      (bit ⟨r, n, data⟩) = 0 := by
    refine List.countP_eq_zero.2 fun i hi => ?_
    obtain ⟨j, -, rfl⟩ := List.mem_map.1 hi
    rw [hpadding _ (Nat.le_add_right ..)]
    exact Bool.false_ne_true
  rw [hbits, hsplit, List.range_add, List.countP_append, htail, Nat.add_zero]

/-! ## Padding -/

theorem testBit_clearTail (r : Nat) (byte : UInt8) (k : Nat) :
    (clearTail r byte).toNat.testBit k = (byte.toNat.testBit k && decide (k < tailBits r)) := by
  have hlt : tailBits r < 8 := Nat.mod_lt _ (by decide)
  have hmask : (mask (tailBits r) - 1).toNat = 2 ^ tailBits r - 1 := by
    have hall : ∀ k < 8, (mask k - 1).toNat = 2 ^ k - 1 := by decide
    exact hall _ hlt
  rw [clearTail, UInt8.toNat_and, Nat.testBit_and, hmask, Nat.testBit_two_pow_sub_one]

theorem padding_of_last (hsize : data.size = byteCount r)
    (hlast : ∀ byte, tailBits r ≠ 0 → data[data.size - 1]? = some byte →
      ∃ byte', byte = clearTail r byte') :
    ∀ i, volume r ≤ i → bit ⟨r, n, data⟩ i = false := by
  intro i hi
  simp only [bit, Array.getD_eq_getD_getElem?]
  rcases Nat.lt_or_ge (i / 8) data.size with hlt | hge
  · have htail : tailBits r ≠ 0 ∧ i / 8 = data.size - 1 ∧ tailBits r ≤ i % 8 := by
      simp only [tailBits, hsize, byteCount] at *
      omega
    obtain ⟨htail, hindex, hk⟩ := htail
    obtain ⟨byte, hbyte⟩ : ∃ byte, data[i / 8]? = some byte := ⟨_, Array.getElem?_eq_getElem hlt⟩
    obtain ⟨byte', rfl⟩ := hlast byte htail (hindex ▸ hbyte)
    rw [hbyte, Option.getD_some, testBit_clearTail, decide_eq_false (Nat.not_lt.2 hk),
      Bool.and_false]
  · rw [Array.getElem?_eq_none hge]
    simp

theorem checkSize_eq_ok_iff :
    checkSize r data = .ok () ↔ r ≤ maxResolution ∧ data.size = byteCount r := by
  rw [checkSize]
  split
  · next hlt => exact ⟨fun h => (nomatch h), fun h => by omega⟩
  · next hle =>
    split
    · next hne => exact ⟨fun h => (nomatch h), fun h => absurd h.2 hne⟩
    · next heq => exact ⟨fun _ => ⟨by omega, not_not.1 heq⟩, fun _ => rfl⟩

theorem size_clearPadding : (clearPadding r data).size = data.size := by
  rw [clearPadding]
  split
  · rfl
  · exact Array.size_modify

theorem padding_clearPadding (hsize : data.size = byteCount r) :
    ∀ i, volume r ≤ i → bit ⟨r, n, clearPadding r data⟩ i = false := by
  refine padding_of_last (size_clearPadding.trans hsize) fun byte htail hbyte => ?_
  rw [size_clearPadding, clearPadding, if_neg htail, Array.getElem?_modify, if_pos rfl] at hbyte
  obtain ⟨byte', -, rfl⟩ := Option.map_eq_some_iff.1 hbyte
  exact ⟨byte', rfl⟩

theorem bit_clearPadding (hsize : data.size = byteCount r) (i : Nat) :
    bit ⟨r, n, clearPadding r data⟩ i = (bit ⟨r, n, data⟩ i && decide (i < volume r)) := by
  by_cases hi : i < volume r
  · rw [decide_eq_true hi, Bool.and_true, clearPadding]
    split
    · rfl
    · next htail =>
      simp only [bit, Array.getD_eq_getD_getElem?, Array.getElem?_modify]
      split
      · next hlast =>
        have hplace : i % 8 < tailBits r := by
          simp only [tailBits, hsize, byteCount] at *
          omega
        cases data[i / 8]? with
        | none => rfl
        | some byte =>
          rw [Option.map_some, Option.getD_some, Option.getD_some, testBit_clearTail,
            decide_eq_true hplace, Bool.and_true]
      · rfl
  · rw [decide_eq_false hi, Bool.and_false, padding_clearPadding hsize i (Nat.le_of_not_lt hi)]

theorem padding_of_paddingSet (hsize : data.size = byteCount r)
    (hclear : paddingSet r data = false) :
    ∀ i, volume r ≤ i → bit ⟨r, n, data⟩ i = false := by
  refine padding_of_last hsize fun byte htail hbyte => ?_
  rw [← Array.back?_eq_getElem?] at hbyte
  rw [paddingSet, hbyte, Option.any_some, Bool.and_eq_false_iff, bne_eq_false_iff_eq,
    bne_eq_false_iff_eq] at hclear
  exact ⟨byte, (hclear.resolve_left htail).symm⟩

/-! ## Matrices that are read -/

/-- A model file is read if its side is within the limit and its payload is as long as that asks
for, and then it is read as its payload with the padding cleared. -/
theorem parse_cons_eq_ok_iff {side : UInt8} {payload : List UInt8} :
    parse (side :: payload) = .ok m ↔
      (side.toNat ≤ maxResolution ∧ payload.length = byteCount side.toNat) ∧
        m = ⟨side.toNat, bitTotal (clearPadding side.toNat payload.toArray),
          clearPadding side.toNat payload.toArray⟩ := by
  rw [← List.size_toArray, ← checkSize_eq_ok_iff, parse]
  cases checkSize side.toNat payload.toArray with
  | error e => exact ⟨fun h => (nomatch h), fun h => (nomatch h.1)⟩
  | ok _ => exact ⟨fun h => ⟨rfl, (Except.ok.inj h).symm⟩, fun h => congrArg Except.ok h.2.symm⟩

theorem ofParts_eq_ok_iff :
    ofParts r n data = .ok m ↔
      (r ≤ maxResolution ∧ data.size = byteCount r) ∧ paddingSet r data = false ∧
        bitTotal data = n ∧ m = ⟨r, n, data⟩ := by
  rw [← checkSize_eq_ok_iff, ofParts]
  cases checkSize r data with
  | error e => exact ⟨fun h => (nomatch h), fun h => (nomatch h.1)⟩
  | ok _ =>
    change (if _ then _ else if _ then _ else _) = _ ↔ _
    by_cases hpadding : paddingSet r data = true
    · simp [hpadding]
    · by_cases hcount : bitTotal data = n
      · simp [hpadding, hcount, eq_comm]
      · simp [hpadding, hcount]

theorem consistent_of_parse {bytes : List UInt8} (h : parse bytes = .ok m) : m.Consistent := by
  cases bytes with
  | nil => cases h
  | cons side payload =>
    obtain ⟨⟨-, hlength⟩, rfl⟩ := parse_cons_eq_ok_iff.1 h
    have hsize : payload.toArray.size = byteCount side.toNat := hlength
    have hpadding := padding_clearPadding
      (n := bitTotal (clearPadding side.toNat payload.toArray)) hsize
    exact ⟨size_clearPadding.trans hsize, hpadding,
      bitTotal_eq (size_clearPadding.trans hsize) hpadding⟩

theorem consistent_of_ofParts (h : ofParts r n data = .ok m) : m.Consistent := by
  obtain ⟨⟨-, hsize⟩, hclear, hcount, rfl⟩ := ofParts_eq_ok_iff.1 h
  have hpadding := padding_of_paddingSet (n := n) hsize hclear
  exact ⟨hsize, hpadding, hcount.symm.trans (bitTotal_eq hsize hpadding)⟩

/-! ## Matrices that are put together -/

theorem Consistent.paddingSet (h : m.Consistent) : paddingSet m.resolution m.data = false := by
  rw [Matrix.paddingSet, Bool.and_eq_false_iff, bne_eq_false_iff_eq]
  by_cases htail : tailBits m.resolution = 0
  · exact .inl htail
  · refine .inr ?_
    cases hback : m.data.back? with
    | none => rfl
    | some byte =>
      rw [Array.back?_eq_getElem?] at hback
      rw [Option.any_some, bne_eq_false_iff_eq]
      refine byte_ext fun k hk => ?_
      rw [testBit_clearTail]
      by_cases hvoxel : k < tailBits m.resolution
      · rw [decide_eq_true hvoxel, Bool.and_true]
      · have hbit := h.padding (8 * (m.data.size - 1) + k) (by
          have hsize := h.size
          simp only [tailBits, byteCount] at *
          omega)
        have hindex : (8 * (m.data.size - 1) + k) / 8 = m.data.size - 1 := by omega
        have hplace : (8 * (m.data.size - 1) + k) % 8 = k := by omega
        rw [bit, hindex, hplace, Array.getD_eq_getD_getElem?, hback, Option.getD_some] at hbit
        rw [hbit, Bool.false_and]

theorem Consistent.ofParts (h : m.Consistent) (hr : m.resolution ≤ maxResolution) :
    ofParts m.resolution m.fullCount m.data = .ok m := by
  have hcount : bitTotal m.data = m.fullCount :=
    (bitTotal_eq (n := m.fullCount) h.size h.padding).trans h.count.symm
  exact ofParts_eq_ok_iff.2 ⟨⟨hr, h.size⟩, h.paddingSet, hcount, rfl⟩

end VoxelSwarm.Matrix
