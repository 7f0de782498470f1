import VoxelSwarm.Text.Utf8

/-!
# Texts come back from their bytes

`Utf8.decode_encode` says that every text is read back from its bytes. A character comes back from
its one to four bytes whatever follows them (`step?_utf8EncodeChar`), so the text comes back one
character after the other.
-/

namespace VoxelSwarm.Utf8

variable {c : Char} {rest : List UInt8} {n : Nat}

/-! ## One character -/

theorem utf8EncodeChar_of_lt (h : c.toNat < 128) :
    String.utf8EncodeChar c = [c.toNat.toUInt8] := by
  rw [String.utf8EncodeChar, Char.toNat_val, if_pos (Nat.le_of_lt_succ h)]

theorem toNat_ofNat (h : n < 256) : (UInt8.ofNat n).toNat = n := UInt8.toNat_ofNat_of_lt' h

theorem continuation?_ofNat (n : Nat) :
    continuation? (UInt8.ofNat (n % 64 + 128)) = some (n % 64) := by
  rw [continuation?, toNat_ofNat (by omega), if_pos (by omega), Nat.add_sub_cancel]

theorem scalar?_of_eq {least code : Nat} (hcode : code = c.toNat) (h : least ≤ c.toNat) :
    scalar? least code = some c := by
  rw [hcode, scalar?, if_pos ⟨h, c.valid⟩, Char.ofNat_toNat]

theorem toNat_lt (c : Char) : c.toNat < 1114112 := by
  have hvalid : c.toNat.isValidChar := c.valid
  rw [Nat.isValidChar] at hvalid
  omega

theorem step?_utf8EncodeChar (c : Char) (rest : List UInt8) :
    step? (String.utf8EncodeChar c ++ rest) = some (c, rest) := by
  have hmax := toNat_lt c
  simp only [String.utf8EncodeChar, Char.toNat_val]
  split
  · next hone =>
    simp only [List.singleton_append, step?]
    rw [toNat_ofNat (by omega), if_pos (by omega), Char.ofNat_toNat]
  · split
    · next htwo =>
      simp only [List.cons_append, List.nil_append, step?, continuation?_ofNat]
      rw [toNat_ofNat (by omega), if_neg (by omega), if_pos (by omega)]
      simp only [Option.bind_eq_bind, Option.bind_some]
      rw [scalar?_of_eq (c := c) (by omega) (by omega)]
      rfl
    · split
      · next hthree =>
        simp only [List.cons_append, List.nil_append, step?, continuation?_ofNat]
        rw [toNat_ofNat (by omega), if_neg (by omega), if_neg (by omega), if_pos (by omega)]
        simp only [Option.bind_eq_bind, Option.bind_some]
        rw [scalar?_of_eq (c := c) (by omega) (by omega)]
        rfl
      · next hfour =>
        simp only [List.cons_append, List.nil_append, step?, continuation?_ofNat]
        rw [toNat_ofNat (by omega), if_neg (by omega), if_neg (by omega), if_neg (by omega),
          if_pos (by omega)]
        simp only [Option.bind_eq_bind, Option.bind_some]
        rw [scalar?_of_eq (c := c) (by omega) (by omega)]
        rfl

/-! ## Texts -/

theorem decodeFrom_flatMap (cs done : List Char) {fuel : Nat}
    (hfuel : (cs.flatMap String.utf8EncodeChar).length ≤ fuel) :
    decodeFrom fuel done (cs.flatMap String.utf8EncodeChar) = some (done.reverse ++ cs) := by
  induction cs generalizing fuel done with
  | nil => cases fuel <;> simp [decodeFrom]
  | cons c cs ih =>
    have hsize := c.utf8Size_pos
    rw [List.flatMap_cons] at hfuel ⊢
    have hlength : (String.utf8EncodeChar c ++ cs.flatMap String.utf8EncodeChar).length =
        c.utf8Size + (cs.flatMap String.utf8EncodeChar).length := by
      rw [List.length_append, String.length_utf8EncodeChar]
    obtain ⟨byte, bytes, hbytes⟩ :=
      List.exists_cons_of_length_pos (hlength ▸ Nat.add_pos_left hsize _)
    obtain ⟨fuel, rfl⟩ : ∃ rest, fuel = rest + 1 := Nat.exists_eq_add_one.2 (by omega)
    have hrest : decodeFrom fuel (c :: done) (cs.flatMap String.utf8EncodeChar) =
        some ((c :: done).reverse ++ cs) := ih (c :: done) (by omega)
    rw [hbytes, decodeFrom, ← hbytes, step?_utf8EncodeChar]
    · simpa using hrest
    · exact List.cons_ne_nil _ _

theorem decode_encode (text : String) : decode (encode text) = some text := by
  rw [decode, encode, decodeFrom_flatMap text.toList [] (Nat.le_refl _), List.reverse_nil,
    List.nil_append, Option.map_some, String.ofList_toList]

theorem encode_inj {text other : String} (h : encode text = encode other) : text = other := by
  have hdecode := congrArg decode h
  rw [decode_encode, decode_encode] at hdecode
  exact Option.some.inj hdecode

end VoxelSwarm.Utf8
