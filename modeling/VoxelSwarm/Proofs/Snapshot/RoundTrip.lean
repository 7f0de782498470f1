import Mathlib.Data.List.TakeWhile
import VoxelSwarm.Proofs.Json.Yields
import VoxelSwarm.Proofs.Snapshot.Serial
import VoxelSwarm.Proofs.Text.Base64

/-!
# Snapshots come back from their texts

`Snapshot.decode_padded` says that a storable snapshot is read back from its text, also with blanks
around it. No character of the text is a blank, and none of a field a colon, so cutting off the
blanks and splitting at the colons gives the four fields back, and each of them is read as it was
written. For each of these steps an equivalence says which texts it accepts, down to
`Snapshot.decode_eq_ok_iff` for the whole.
-/

namespace VoxelSwarm

open Json

/-! ## Blanks -/

theorem dropWhile_append_of_neg {α : Type} {p : α → Bool} {before rest : List α}
    (hbefore : ∀ a ∈ before, p a = true) (hrest : ∀ a ∈ rest.head?, p a = false) :
    (before ++ rest).dropWhile p = rest := by
  rw [List.dropWhile_append_of_pos hbefore]
  cases rest with
  | nil => rfl
  | cons a rest => exact List.dropWhile_cons_of_neg (by simp [hrest a rfl])

theorem Blank.trim_append {before cs after : List Char} (hne : cs ≠ [])
    (hbefore : ∀ c ∈ before, Blank.holds c = true) (hcs : ∀ c ∈ cs, Blank.holds c = false)
    (hafter : ∀ c ∈ after, Blank.holds c = true) : Blank.trim (before ++ cs ++ after) = cs := by
  have hfirst : ∀ c ∈ (cs ++ after).head?, Blank.holds c = false := fun c hc => by
    rw [List.head?_append_of_ne_nil _ hne] at hc
    exact hcs c (List.mem_of_mem_head? hc)
  have hlast : ∀ c ∈ cs.reverse.head?, Blank.holds c = false := fun c hc =>
    hcs c (List.mem_reverse.1 (List.mem_of_mem_head? hc))
  rw [Blank.trim, List.append_assoc, dropWhile_append_of_neg hbefore hfirst, List.reverse_append,
    dropWhile_append_of_neg (fun c hc => hafter c (List.mem_reverse.1 hc)) hlast,
    List.reverse_reverse]

namespace Snapshot

variable {s : Snapshot} {bytes : List UInt8} {c : Char} {r : Nat}
  {cs first second third fourth rest tail : List Char}

/-! ## Fields -/

/-- What fields consist of: the visible characters of ASCII but for the colon. -/
def Inner (c : Char) : Prop := 32 < c.toNat ∧ c.toNat < 127 ∧ c ≠ ':'

instance (c : Char) : Decidable (Inner c) := inferInstanceAs (Decidable (_ ∧ _))

theorem Inner.holds (h : Inner c) : Blank.holds c = false := by
  obtain ⟨hleast, hmost, -⟩ := h
  simp only [Blank.holds, Bool.or_eq_false_iff, Bool.and_eq_false_iff, decide_eq_false_iff_not,
    beq_eq_false_iff_ne]
  omega

theorem Inner.not_mem (h : ∀ c ∈ cs, Inner c) : ':' ∉ cs :=
  fun hmem => (h ':' hmem).2.2 rfl

theorem field_append (hfirst : ':' ∉ first) (htail : ∀ c ∈ tail.head?, c = ':') :
    field (first ++ tail) = (first, tail.tail?) := by
  have hall : ∀ c ∈ first, decide (c ≠ ':') = true := fun c hc =>
    decide_eq_true fun heq => hfirst (heq ▸ hc)
  have hcolon : ∀ c ∈ tail.head?, decide (c ≠ ':') = false := fun c hc => by
    simp [htail c hc]
  have htake : tail.takeWhile (fun c => decide (c ≠ ':')) = [] := by
    cases tail with
    | nil => rfl
    | cons c tail => exact List.takeWhile_cons_of_neg (by simp [htail c rfl])
  rw [field, List.takeWhile_append_of_pos hall, htake, List.append_nil,
    dropWhile_append_of_neg hall hcolon]

theorem exists_field (cs : List Char) :
    ∃ first tail, cs = first ++ tail ∧ ':' ∉ first ∧ ∀ c ∈ tail.head?, c = ':' := by
  refine ⟨cs.takeWhile (· ≠ ':'), cs.dropWhile (· ≠ ':'), List.takeWhile_append_dropWhile.symm,
    fun hmem => ?_, fun c hc => ?_⟩
  · simpa using List.mem_takeWhile_imp hmem
  · have hhead := List.head?_dropWhile_not (fun c => decide (c ≠ ':')) cs
    rw [Option.mem_def.1 hc] at hhead
    simpa using hhead

theorem field_eq_some_iff :
    field cs = (first, some rest) ↔ cs = first ++ ':' :: rest ∧ ':' ∉ first := by
  constructor
  · intro h
    obtain ⟨found, tail, rfl, hfound, htail⟩ := exists_field cs
    obtain ⟨rfl, hrest⟩ := Prod.mk.inj ((field_append hfound htail).symm.trans h)
    cases tail with
    | nil => cases hrest
    | cons c tail =>
      obtain rfl := Option.some.inj hrest
      exact ⟨by rw [htail c rfl], hfound⟩
  · rintro ⟨rfl, hfirst⟩
    exact field_append hfirst (by simp)

theorem field_fst_eq_iff : (field cs).1 = first ↔
    ∃ tail, cs = first ++ tail ∧ ':' ∉ first ∧ ∀ c ∈ tail.head?, c = ':' := by
  constructor
  · rintro rfl
    obtain ⟨found, tail, rfl, hfound, htail⟩ := exists_field cs
    rw [field_append hfound htail]
    exact ⟨tail, rfl, hfound, htail⟩
  · rintro ⟨tail, rfl, hfirst, htail⟩
    rw [field_append hfirst htail]

theorem Fields.ofChars_eq_ok_iff : Fields.ofChars cs = .ok ⟨first, second, third, fourth⟩ ↔
    ∃ tail, cs = first ++ ':' :: (second ++ ':' :: (third ++ ':' :: (fourth ++ tail))) ∧
      ':' ∉ first ∧ ':' ∉ second ∧ ':' ∉ third ∧ ':' ∉ fourth ∧ ∀ c ∈ tail.head?, c = ':' := by
  constructor
  · intro h
    unfold ofChars at h
    split at h
    · cases h
    split at h
    · cases h
    next _ _ hfield =>
      split at h
      · cases h
      next _ _ hfield' =>
        split at h
        · cases h
        next _ _ hfield'' =>
          obtain ⟨rfl, rfl, rfl, hpayload⟩ := Fields.mk.inj (Except.ok.inj h)
          obtain ⟨rfl, hfirst⟩ := field_eq_some_iff.1 hfield
          obtain ⟨rfl, hsecond⟩ := field_eq_some_iff.1 hfield'
          obtain ⟨rfl, hthird⟩ := field_eq_some_iff.1 hfield''
          obtain ⟨tail, rfl, hfourth, htail⟩ := field_fst_eq_iff.1 hpayload
          exact ⟨tail, rfl, hfirst, hsecond, hthird, hfourth, htail⟩
  · rintro ⟨tail, rfl, hfirst, hsecond, hthird, hfourth, htail⟩
    have hne : (first ++ ':' :: (second ++ ':' :: (third ++ ':' :: (fourth ++ tail)))).isEmpty =
      false := by simp
    simp only [ofChars, hne, Bool.false_eq_true, if_false, field_eq_some_iff.2 ⟨rfl, hfirst⟩,
      field_eq_some_iff.2 ⟨rfl, hsecond⟩, field_eq_some_iff.2 ⟨rfl, hthird⟩,
      field_append hfourth htail]

/-! ## The resolution -/

theorem inner_of_mem_toString (h : c ∈ (toString r).toList) : Inner c := by
  have hdigits : (toString r).toList = Nat.toDigits 10 r := Nat.toList_repr
  rw [hdigits] at h
  obtain ⟨hleast, hmost⟩ := Char.isDigit_iff_toNat.1 (Natural.isDigit_of_mem h)
  have hzero : '0'.toNat = 48 := rfl
  have hnine : '9'.toNat = 57 := rfl
  refine ⟨by omega, by omega, ?_⟩
  rintro rfl
  exact absurd hmost (by decide)

theorem declaredResolution_eq_ok_iff : declaredResolution cs = .ok r ↔
    Natural.Spells (Blank.trim cs) r ∧ r ≤ Nat.pow 2 32 - 1 := by
  rw [← Natural.parse?_eq_some_iff, declaredResolution]
  split <;> simp [*]

theorem declaredResolution_toString (h : r < 2 ^ 32) :
    declaredResolution (toString r).toList = .ok r := by
  have hne : (toString r).toList ≠ [] := by
    have hdigits : (toString r).toList = Nat.toDigits 10 r := Nat.toList_repr
    rw [hdigits]
    exact Nat.toDigits_ne_nil
  have htrim : Blank.trim ([] ++ (toString r).toList ++ []) = (toString r).toList :=
    Blank.trim_append hne (by simp) (fun c hc => (inner_of_mem_toString hc).holds) (by simp)
  have hle : r ≤ Nat.pow 2 32 - 1 := Nat.le_sub_one_of_lt h
  rw [List.nil_append, List.append_nil] at htrim
  rw [declaredResolution, htrim, Natural.parse?_toString hle]

/-! ## The payload -/

/-- A snapshot whose numbers fit words. -/
structure Storable (s : Snapshot) : Prop where
  traceOffset : s.traceOffset < 2 ^ 64
  steps : s.steps < 2 ^ 64
  state : s.state.Storable

theorem decoder_toJson (h : s.Storable) : decoder s.toJson.reading = .ok s := by
  refine Json.Decoder.record_object rfl (by decide) ?_
  simp only [List.map_cons, List.map_nil, Json.itemReadings, Json.Decoder.setItems,
    Json.Decoder.size, Json.Decoder.natural64, Json.Decoder.natural_nat h.traceOffset,
    Json.Decoder.natural_nat h.steps, State.decoder_toJson h.state]
  rfl

theorem plain_toJson (h : s.Storable) : s.toJson.Plain :=
  ⟨Json.plain_nat h.traceOffset, Json.plain_nat h.steps, State.plain_toJson h.state, trivial⟩

theorem run_decoder (h : s.Storable) : decoder.run s.toJson.bytes = .ok s := by
  rw [decoder.run_bytes (plain_toJson h), decoder_toJson h]

theorem visible_of_mem_encode {byte : UInt8} (h : byte ∈ Base64.encode bytes) :
    32 < byte.toNat ∧ byte.toNat < 127 ∧ byte.toNat ≠ 58 := by
  rw [Base64.encode_eq] at h
  obtain ⟨v, hv, rfl⟩ := List.mem_map.1 h
  exact Base64.visible_symbol (Base64.lt_of_mem_sextets hv)

theorem toNat_ofNat_byte {byte : UInt8} (h : byte.toNat < 128) :
    (Char.ofNat byte.toNat).toNat = byte.toNat := by
  have hvalid : byte.toNat.isValidChar := .inl (h.trans (by decide))
  rw [Char.ofNat, dif_pos hvalid]
  rfl

theorem inner_of_mem_payload (h : c ∈ asciiChars (Base64.encode bytes)) : Inner c := by
  obtain ⟨byte, hbyte, rfl⟩ := List.mem_map.1 h
  obtain ⟨hleast, hmost, hcolon⟩ := visible_of_mem_encode hbyte
  have htoNat := toNat_ofNat_byte (Nat.lt_succ_of_lt hmost)
  rw [Inner, htoNat]
  refine ⟨hleast, hmost, fun heq => hcolon ?_⟩
  rw [← htoNat, heq]
  rfl

theorem encode_asciiChars (h : ∀ byte ∈ bytes, byte.toNat < 128) :
    Utf8.encode (String.ofList (asciiChars bytes)) = bytes := by
  rw [Utf8.encode, String.toList_ofList, asciiChars]
  induction bytes with
  | nil => rfl
  | cons byte bytes ih =>
    obtain ⟨hbyte, hbytes⟩ := List.forall_mem_cons.1 h
    have htoNat := toNat_ofNat_byte hbyte
    rw [List.map_cons, List.flatMap_cons, Utf8.utf8EncodeChar_of_lt (htoNat.symm ▸ hbyte), htoNat,
      ih hbytes]
    exact congrArg (· :: bytes) UInt8.ofNat_toNat

theorem decodePayload_eq_ok_iff : decodePayload cs = .ok s ↔
    ∃ bytes, cs = asciiChars (Base64.encode bytes) ∧ decoder.run bytes = .ok s := by
  have hascii (bytes : List UInt8) :
      Utf8.encode (String.ofList (asciiChars (Base64.encode bytes))) = Base64.encode bytes :=
    encode_asciiChars fun _ hbyte => Nat.lt_succ_of_lt (visible_of_mem_encode hbyte).2.1
  constructor
  · intro h
    obtain ⟨bytes, hbytes, hrun⟩ := bind_eq_ok h
    have htext := Base64.decode_eq_ok_iff.1 (mapError_eq_ok hbytes)
    exact ⟨bytes, String.ofList_injective (Utf8.encode_inj (htext.trans (hascii bytes).symm)),
      mapError_eq_ok hrun⟩
  · rintro ⟨bytes, rfl, hrun⟩
    rw [decodePayload, hascii, Base64.decode_encode]
    simp only [Except.mapError, bind, Except.bind, hrun]

theorem decodePayload_encode (h : s.Storable) :
    decodePayload (asciiChars (Base64.encode s.toJson.bytes)) = .ok s :=
  decodePayload_eq_ok_iff.2 ⟨_, rfl, run_decoder h⟩

/-! ## Texts -/

theorem toList_encode (s : Snapshot) :
    s.encode.toList = format.toList ++ ':' :: (version.toList ++ ':' ::
      ((toString s.state.resolution).toList ++ ':' ::
        asciiChars (Base64.encode s.toJson.bytes))) := by
  have hcolon : ":".toList = [':'] := rfl
  simp only [encode, String.toList_append, String.toList_ofList, hcolon, List.append_assoc,
    List.cons_append, List.nil_append]

theorem inner_of_mem_format (h : c ∈ format.toList) : Inner c :=
  have hall : format.toList.all (fun c => decide (Inner c)) = true := by decide
  of_decide_eq_true (List.all_eq_true.1 hall c h)

theorem inner_of_mem_version (h : c ∈ version.toList) : Inner c :=
  have hall : version.toList.all (fun c => decide (Inner c)) = true := by decide
  of_decide_eq_true (List.all_eq_true.1 hall c h)

theorem holds_of_mem_encode (h : c ∈ s.encode.toList) : Blank.holds c = false := by
  rw [toList_encode] at h
  simp only [List.mem_append, List.mem_cons] at h
  rcases h with h | rfl | h | rfl | h | rfl | h
  · exact (inner_of_mem_format h).holds
  · rfl
  · exact (inner_of_mem_version h).holds
  · rfl
  · exact (inner_of_mem_toString h).holds
  · rfl
  · exact (inner_of_mem_payload h).holds

theorem ofChars_encode (s : Snapshot) :
    Fields.ofChars s.encode.toList = .ok ⟨format.toList, version.toList,
      (toString s.state.resolution).toList, asciiChars (Base64.encode s.toJson.bytes)⟩ := by
  rw [toList_encode, Fields.ofChars_eq_ok_iff]
  exact ⟨[], by rw [List.append_nil], Inner.not_mem fun _ => inner_of_mem_format,
    Inner.not_mem fun _ => inner_of_mem_version, Inner.not_mem fun _ => inner_of_mem_toString,
    Inner.not_mem fun _ => inner_of_mem_payload, by simp⟩

theorem ofList_eq_iff {word : String} : String.ofList cs = word ↔ cs = word.toList := by
  rw [← String.toList_inj, String.toList_ofList]

theorem checkFormat_eq_ok_iff : checkFormat cs = .ok () ↔ cs = format.toList := by
  rw [← ofList_eq_iff, checkFormat]
  split <;> simp [*]

theorem checkVersion_eq_ok_iff : checkVersion cs = .ok () ↔ cs = version.toList := by
  rw [← ofList_eq_iff, checkVersion]
  split <;> simp [*]

theorem checkResolution_eq_ok_iff : s.checkResolution r = .ok () ↔ s.state.resolution = r := by
  rw [checkResolution]
  split <;> simp [*]

/-- Reading is reading the fields, each on its own, and finding the declared side in the state. -/
theorem decode_eq_ok_iff {text : String} : decode text = .ok s ↔
    ∃ third fourth,
      Fields.ofChars (Blank.trim text.toList) =
        .ok ⟨format.toList, version.toList, third, fourth⟩ ∧
      declaredResolution third = .ok s.state.resolution ∧ decodePayload fourth = .ok s := by
  constructor
  · intro h
    obtain ⟨⟨first, second, third, fourth⟩, hfields, h⟩ := bind_eq_ok h
    obtain ⟨_, hformat, h⟩ := bind_eq_ok h
    obtain ⟨_, hversion, h⟩ := bind_eq_ok h
    obtain ⟨declared, hdeclared, h⟩ := bind_eq_ok h
    obtain ⟨found, hpayload, h⟩ := bind_eq_ok h
    obtain ⟨_, hresolution, h⟩ := bind_eq_ok h
    obtain rfl := Except.ok.inj h
    obtain rfl := checkResolution_eq_ok_iff.1 hresolution
    obtain rfl := checkFormat_eq_ok_iff.1 hformat
    obtain rfl := checkVersion_eq_ok_iff.1 hversion
    exact ⟨third, fourth, hfields, hdeclared, hpayload⟩
  · rintro ⟨third, fourth, hfields, hdeclared, hpayload⟩
    rw [decode, hfields]
    simp only [bind, Except.bind, checkFormat_eq_ok_iff.2 rfl, checkVersion_eq_ok_iff.2 rfl,
      hdeclared, hpayload, checkResolution_eq_ok_iff.2 rfl]
    rfl

theorem trim_encode (s : Snapshot) {before after : List Char}
    (hbefore : ∀ c ∈ before, Blank.holds c = true) (hafter : ∀ c ∈ after, Blank.holds c = true) :
    Blank.trim (before ++ s.encode.toList ++ after) = s.encode.toList := by
  have hne : s.encode.toList ≠ [] := by
    rw [toList_encode]
    exact List.append_ne_nil_of_right_ne_nil _ (List.cons_ne_nil _ _)
  exact Blank.trim_append hne hbefore (fun c => holds_of_mem_encode) hafter

theorem decode_padded (h : s.Storable) {before after : List Char}
    (hbefore : ∀ c ∈ before, Blank.holds c = true) (hafter : ∀ c ∈ after, Blank.holds c = true) :
    decode (String.ofList before ++ s.encode ++ String.ofList after) = .ok s := by
  rw [decode_eq_ok_iff, String.toList_append, String.toList_append, String.toList_ofList,
    String.toList_ofList, trim_encode s hbefore hafter]
  exact ⟨_, _, ofChars_encode s, declaredResolution_toString h.state.matrix.fits.resolution,
    decodePayload_encode h⟩

theorem decode_encode (h : s.Storable) : decode s.encode = .ok s := by
  have hpadded := decode_padded h (List.forall_mem_nil _) (List.forall_mem_nil _)
  simpa using hpadded

end Snapshot

end VoxelSwarm
