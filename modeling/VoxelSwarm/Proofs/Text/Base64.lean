import VoxelSwarm.Text.Base64

/-!
# Bytes come back from base64

`Base64.decode_encode` says that bytes are read back from their symbols, and `decode_eq_ok_iff` that
no other symbols are read. Between them stand the values of six bits each (`sextets`): writing goes
through them one by one, and reading gets the bytes back from them group by group.
-/

namespace VoxelSwarm.Base64

/-- The values that bytes are written as, six bits each. -/
def sextets : List UInt8 → List Nat
  | a :: b :: c :: rest =>
    let n := (a.toNat * 256 + b.toNat) * 256 + c.toNat
    n / 262144 :: n / 4096 % 64 :: n / 64 % 64 :: n % 64 :: sextets rest
  | [a, b] =>
    let n := (a.toNat * 256 + b.toNat) * 4
    [n / 4096, n / 64 % 64, n % 64]
  | [a] =>
    let n := a.toNat * 16
    [n / 64, n % 64]
  | [] => []

variable {bytes done : List UInt8} {vs : List Nat} {v : Nat}

/-! ## Symbols -/

theorem value?_symbol (h : v < 64) : value? (symbol v) = some v := by
  have hall : ∀ v < 64, value? (symbol v) = some v := by decide
  exact hall v h

theorem visible_symbol (h : v < 64) :
    32 < (symbol v).toNat ∧ (symbol v).toNat < 127 ∧ (symbol v).toNat ≠ 58 := by
  have hall : ∀ v < 64,
      32 < (symbol v).toNat ∧ (symbol v).toNat < 127 ∧ (symbol v).toNat ≠ 58 := by decide
  exact hall v h

theorem encodeFrom_eq (done bytes : List UInt8) :
    encodeFrom done bytes = done.reverse ++ (sextets bytes).map symbol := by
  induction bytes using sextets.induct generalizing done with
  | case1 a b c rest ih => simp [encodeFrom, sextets, ih]
  | case2 a b => simp [encodeFrom, sextets]
  | case3 a => simp [encodeFrom, sextets]
  | case4 => simp [encodeFrom, sextets]

theorem encode_eq (bytes : List UInt8) : encode bytes = (sextets bytes).map symbol := by
  rw [encode, encodeFrom_eq, List.reverse_nil, List.nil_append]

theorem lt_of_mem_sextets (h : v ∈ sextets bytes) : v < 64 := by
  induction bytes using sextets.induct with
  | case1 a b c rest ih =>
    have ha := a.toNat_lt
    have hb := b.toNat_lt
    have hc := c.toNat_lt
    simp only [sextets, List.mem_cons] at h
    rcases h with rfl | rfl | rfl | rfl | h
    · omega
    · omega
    · omega
    · omega
    · exact ih h
  | case2 a b =>
    have ha := a.toNat_lt
    have hb := b.toNat_lt
    simp only [sextets, List.mem_cons, List.not_mem_nil, or_false] at h
    omega
  | case3 a =>
    have ha := a.toNat_lt
    simp only [sextets, List.mem_cons, List.not_mem_nil, or_false] at h
    omega
  | case4 => cases h

theorem valuesFrom_map (h : ∀ v ∈ vs, v < 64) (done : List Nat) (offset : Nat) :
    valuesFrom done offset (vs.map symbol) = (done.reverse ++ vs, none) := by
  induction vs generalizing done offset with
  | nil => simp [valuesFrom]
  | cons v vs ih =>
    obtain ⟨hv, hvs⟩ := List.forall_mem_cons.1 h
    simp [valuesFrom, value?_symbol hv, ih hvs]

/-! ## Groups -/

theorem length_sextets (bytes : List UInt8) : (sextets bytes).length % 4 ≠ 1 := by
  induction bytes using sextets.induct with
  | case1 a b c rest ih =>
    simp only [sextets, List.length_cons]
    omega
  | case2 a b => simp [sextets]
  | case3 a => simp [sextets]
  | case4 => simp [sextets]

theorem unusedBits_cons (a b c d : Nat) (vs : List Nat) :
    unusedBits (a :: b :: c :: d :: vs) = unusedBits vs := by
  cases vs with
  | nil => simp [unusedBits]
  | cons v vs =>
    have hlength : (a :: b :: c :: d :: v :: vs).length % 4 = (v :: vs).length % 4 := by
      simp only [List.length_cons]
      omega
    rw [unusedBits, unusedBits, hlength]
    simp only [List.getLastD_cons]

theorem unusedBits_sextets (bytes : List UInt8) : unusedBits (sextets bytes) = 0 := by
  induction bytes using sextets.induct with
  | case1 a b c rest ih => simpa only [sextets, unusedBits_cons] using ih
  | case2 a b =>
    simp only [sextets, unusedBits, List.length_cons, List.length_nil, List.getLastD_cons,
      List.getLastD_nil]
    omega
  | case3 a =>
    simp only [sextets, unusedBits, List.length_cons, List.length_nil, List.getLastD_cons,
      List.getLastD_nil]
    omega
  | case4 => rfl

theorem toUInt8_eq {n : Nat} {a : UInt8} (h : n % 256 = a.toNat) : n.toUInt8 = a := by
  rw [← UInt8.toNat_inj, ← h]
  exact UInt8.toNat_ofNat'

theorem bytesFrom_sextets (done bytes : List UInt8) :
    bytesFrom done (sextets bytes) = done.reverse ++ bytes := by
  induction bytes using sextets.induct generalizing done with
  | case1 a b c rest ih =>
    have ha := a.toNat_lt
    have hb := b.toNat_lt
    have hc := c.toNat_lt
    simp only [sextets, bytesFrom]
    rw [ih, toUInt8_eq (a := c) (by omega), toUInt8_eq (a := b) (by omega),
      toUInt8_eq (a := a) (by omega)]
    simp
  | case2 a b =>
    have ha := a.toNat_lt
    have hb := b.toNat_lt
    simp only [sextets, bytesFrom]
    rw [toUInt8_eq (a := b) (by omega), toUInt8_eq (a := a) (by omega)]
    simp
  | case3 a =>
    have ha := a.toNat_lt
    simp only [sextets, bytesFrom]
    rw [toUInt8_eq (a := a) (by omega)]
    simp
  | case4 => simp [sextets, bytesFrom]

theorem decode_encode (bytes : List UInt8) : decode (encode bytes) = .ok bytes := by
  have hlength : lengthFault? ((sextets bytes).map symbol) = none := by
    rw [lengthFault?, List.length_map, if_pos (length_sextets bytes)]
  rw [encode_eq, decode, hlength]
  simp only [valuesFrom_map (fun v => lt_of_mem_sextets), List.reverse_nil, List.nil_append,
    unusedBits_sextets, ne_eq, not_true_eq_false, if_false, bytesFrom_sextets]

/-! ## No other symbols -/

theorem symbol_of_value? {byte : UInt8} (h : value? byte = some v) : v < 64 ∧ symbol v = byte := by
  have hall : ∀ n < 256, ∀ v ∈ value? n.toUInt8, v < 64 ∧ symbol v = n.toUInt8 := by
    decide +kernel
  have hbyte : byte.toNat.toUInt8 = byte := UInt8.ofNat_toNat
  have hvalue := hall byte.toNat byte.toNat_lt v (hbyte.symm ▸ h)
  rwa [hbyte] at hvalue

theorem eq_map_of_valuesFrom {text : List UInt8} {done values : List Nat} {offset : Nat}
    (h : valuesFrom done offset text = (values, none)) :
    ∃ vs, values = done.reverse ++ vs ∧ (∀ v ∈ vs, v < 64) ∧ text = vs.map symbol := by
  induction text generalizing done offset with
  | nil =>
    obtain rfl := congrArg Prod.fst h
    exact ⟨[], (List.append_nil _).symm, List.forall_mem_nil _, rfl⟩
  | cons byte rest ih =>
    rw [valuesFrom] at h
    split at h
    · cases h
    · next v hvalue =>
      obtain ⟨hlt, hsymbol⟩ := symbol_of_value? hvalue
      obtain ⟨vs, rfl, hvs, rfl⟩ := ih h
      exact ⟨v :: vs, by simp, List.forall_mem_cons.2 ⟨hlt, hvs⟩, by rw [List.map_cons, hsymbol]⟩

theorem toNat_toUInt8 {n : Nat} (h : n < 256) : n.toUInt8.toNat = n :=
  UInt8.toNat_ofNat_of_lt' h

theorem exists_sextets : ∀ {vs : List Nat}, (∀ v ∈ vs, v < 64) → vs.length % 4 ≠ 1 →
    unusedBits vs = 0 → ∃ bytes, sextets bytes = vs
  | [], _, _, _ => ⟨[], rfl⟩
  | [_], _, hlength, _ => absurd rfl hlength
  | [a, b], hvs, _, hunused => by
    simp only [List.forall_mem_cons] at hvs
    have hb : b % 16 = 0 := hunused
    refine ⟨[(a * 4 + b / 16).toUInt8], ?_⟩
    simp only [sextets]
    rw [toNat_toUInt8 (by omega)]
    congr 2 <;> omega
  | [a, b, c], hvs, _, hunused => by
    simp only [List.forall_mem_cons] at hvs
    have hc : c % 4 = 0 := hunused
    refine ⟨[(a * 4 + b / 16).toUInt8, (b % 16 * 16 + c / 4).toUInt8], ?_⟩
    simp only [sextets]
    rw [toNat_toUInt8 (by omega), toNat_toUInt8 (by omega)]
    congr 3 <;> omega
  | a :: b :: c :: d :: vs, hvs, hlength, hunused => by
    simp only [List.forall_mem_cons] at hvs
    obtain ⟨ha, hb, hc, hd, hvs⟩ := hvs
    have hrest : vs.length % 4 ≠ 1 := by
      simp only [List.length_cons] at hlength
      omega
    obtain ⟨bytes, rfl⟩ := exists_sextets hvs hrest (unusedBits_cons a b c d vs ▸ hunused)
    refine ⟨(a * 4 + b / 16).toUInt8 :: (b % 16 * 16 + c / 4).toUInt8 ::
      (c % 4 * 64 + d).toUInt8 :: bytes, ?_⟩
    simp only [sextets]
    rw [toNat_toUInt8 (by omega), toNat_toUInt8 (by omega), toNat_toUInt8 (by omega)]
    congr 4 <;> omega

theorem length_of_lengthFault? {text : List UInt8} (h : lengthFault? text = none) :
    text.length % 4 ≠ 1 := by
  intro hlength
  rw [lengthFault?, if_neg (not_not_intro hlength)] at h
  cases hlast : text.getLast? with
  | none =>
    rw [List.getLast?_eq_none_iff] at hlast
    subst hlast
    cases hlength
  | some byte =>
    simp only [hlast] at h
    split at h <;> cases h

/-- The text of bytes is the only one that they are read from. -/
theorem decode_eq_ok_iff {text : List UInt8} : decode text = .ok bytes ↔ text = encode bytes := by
  refine ⟨fun h => ?_, fun h => h ▸ decode_encode bytes⟩
  rw [decode] at h
  split at h
  · cases h
  next hfault =>
    split at h
    · cases h
    next values hvalues =>
      obtain ⟨vs, hvs, hlt, htext⟩ := eq_map_of_valuesFrom hvalues
      obtain rfl : values = vs := hvs
      have hlength : values.length % 4 ≠ 1 := by
        have := length_of_lengthFault? hfault
        rwa [htext, List.length_map] at this
      split at h
      · cases h
      next hunused =>
        obtain ⟨found, rfl⟩ := exists_sextets hlt hlength (Decidable.of_not_not hunused)
        obtain rfl := Except.ok.inj h
        rw [bytesFrom_sextets, encode_eq, htext]
        rfl

end VoxelSwarm.Base64
