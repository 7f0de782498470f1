import VoxelSwarm.Proofs.Snapshot.Storable

/-!
# Which texts are snapshots

The line of a snapshot has four fields: the format, its version, the side of the grid and the base64
text of a JSON form of the snapshot. A text is read as a snapshot if and only if it is laid out in
these fields (`decode_eq_ok_iff_layout`), of which the third may have blanks around its number,
zeros in front of it and a plus sign. Only what ends the fourth field is left open: either the text
ends there or a colon follows, and behind that colon anything may stand. So a line that more fields
are put after is read as if they were not there (`decode_exact`).
-/

namespace VoxelSwarm

variable {c : Char} {cs rest : List Char}

/-! ## Blanks -/

theorem Blank.head?_trim (h : c ∈ (Blank.trim cs).head?) : Blank.holds c = false := by
  have hfront : Blank.trim cs <+: cs.dropWhile Blank.holds := by
    have hsuffix := List.dropWhile_suffix Blank.holds (l := (cs.dropWhile Blank.holds).reverse)
    simpa only [Blank.trim, List.reverse_reverse] using List.reverse_prefix.2 hsuffix
  obtain ⟨after, hafter⟩ := hfront
  have hhead := List.head?_dropWhile_not Blank.holds cs
  rw [← hafter, List.head?_append, Option.mem_def.1 h] at hhead
  exact hhead

theorem Blank.trim_trim_append (hc : Blank.holds c = false) (cs rest : List Char) :
    Blank.trim (Blank.trim cs ++ c :: rest) =
      Blank.trim cs ++ c :: (rest.reverse.dropWhile Blank.holds).reverse := by
  have hhead : ∀ d ∈ (Blank.trim cs ++ c :: rest).head?, Blank.holds d = false := by
    intro d hd
    rw [List.head?_append] at hd
    cases hcase : (Blank.trim cs).head? with
    | none =>
      rw [hcase] at hd
      exact Option.some.inj hd ▸ hc
    | some first =>
      rw [hcase] at hd
      exact Blank.head?_trim (hcase.trans hd)
  have hfirst : (Blank.trim cs ++ c :: rest).dropWhile Blank.holds = Blank.trim cs ++ c :: rest :=
    dropWhile_append_of_neg (List.forall_mem_nil fun c => Blank.holds c = true) hhead
  have hlast : (rest.reverse ++ c :: (Blank.trim cs).reverse).dropWhile Blank.holds =
      rest.reverse.dropWhile Blank.holds ++ c :: (Blank.trim cs).reverse := by
    have hstop : (c :: (Blank.trim cs).reverse).dropWhile Blank.holds =
        c :: (Blank.trim cs).reverse := List.dropWhile_cons_of_neg (by simp [hc])
    rw [List.dropWhile_append, hstop]
    split
    · next hempty => rw [List.isEmpty_iff.1 hempty, List.nil_append]
    · rfl
  rw [Blank.trim, hfirst]
  simp only [List.reverse_append, List.reverse_cons, List.append_assoc, hlast,
    List.reverse_reverse, List.nil_append, List.cons_append]

namespace Snapshot

variable {s : Snapshot} {text : String} {third tail : List Char} {bytes : List UInt8}

/-! ## Lines -/

/-- A text in the fields of a snapshot's line, and what it has behind them. -/
structure Layout (s : Snapshot) (cs third : List Char) (bytes : List UInt8) (tail : List Char) :
    Prop where
  fields : cs = format.toList ++ ':' :: (version.toList ++ ':' :: (third ++ ':' ::
    (asciiChars (Base64.encode bytes) ++ tail)))
  apart : ':' ∉ third
  /-- The third field is the side of the grid, in decimal digits. -/
  side : Natural.Spells (Blank.trim third) s.state.matrix.resolution
  /-- The fourth field holds a JSON form of the snapshot. -/
  payload : decoder.run bytes = .ok s
  /-- The fourth field ends where the text does or at a colon. -/
  tail : ∀ c ∈ tail.head?, c = ':'

theorem not_mem_payload : ':' ∉ asciiChars (Base64.encode bytes) :=
  Inner.not_mem fun _ => inner_of_mem_payload

theorem decode_eq_ok_iff_layout : decode text = .ok s ↔
    ∃ third bytes tail, s.Layout (Blank.trim text.toList) third bytes tail := by
  rw [decode_eq_ok_iff]
  constructor
  · rintro ⟨third, fourth, hfields, hdeclared, hpayload⟩
    obtain ⟨tail, htext, -, -, hthird, -, htail⟩ := Fields.ofChars_eq_ok_iff.1 hfields
    obtain ⟨bytes, rfl, hrun⟩ := decodePayload_eq_ok_iff.1 hpayload
    exact ⟨third, bytes, tail, htext, hthird, (declaredResolution_eq_ok_iff.1 hdeclared).1, hrun,
      htail⟩
  · rintro ⟨third, bytes, tail, h⟩
    have hstorable : s.Storable := Json.Decoder.run_yields decoder_yields h.payload
    have hside : s.state.resolution ≤ Nat.pow 2 32 - 1 :=
      Nat.le_sub_one_of_lt hstorable.state.matrix.fits.resolution
    exact ⟨third, asciiChars (Base64.encode bytes),
      Fields.ofChars_eq_ok_iff.2 ⟨tail, h.fields, by decide, by decide, h.apart, not_mem_payload,
        h.tail⟩,
      declaredResolution_eq_ok_iff.2 ⟨h.side, hside⟩,
      decodePayload_eq_ok_iff.2 ⟨bytes, rfl, h.payload⟩⟩

theorem Layout.count_colon (h : s.Layout cs third bytes tail) :
    cs.count ':' = 3 + tail.count ':' := by
  have hformat : format.toList.count ':' = 0 := by decide
  have hversion : version.toList.count ':' = 0 := by decide
  rw [h.fields]
  simp only [List.count_append, List.count_cons_self, hformat, hversion,
    List.count_eq_zero_of_not_mem h.apart, List.count_eq_zero_of_not_mem not_mem_payload]
  omega

theorem Layout.not_four (h : s.Layout cs third bytes tail) (rest : List Char) :
    ¬∃ third bytes, s.Layout (cs ++ ':' :: rest) third bytes [] := by
  rintro ⟨third, bytes, hfour⟩
  have hmore := hfour.count_colon
  rw [List.count_append, List.count_cons_self, h.count_colon, List.count_nil] at hmore
  omega

theorem Layout.append (h : s.Layout cs third bytes tail) (rest : List Char) :
    s.Layout (cs ++ ':' :: rest) third bytes (tail ++ ':' :: rest) where
  fields := by
    rw [h.fields]
    simp only [List.append_assoc, List.cons_append]
  apart := h.apart
  side := h.side
  payload := h.payload
  tail := by
    intro c hc
    cases tail with
    | nil => exact (Option.some.inj hc).symm
    | cons d tail => exact h.tail c hc

theorem decode_append (h : decode text = .ok s) (rest : List Char) :
    decode (String.ofList (Blank.trim text.toList ++ ':' :: rest)) = .ok s := by
  obtain ⟨third, bytes, tail, hlayout⟩ := decode_eq_ok_iff_layout.1 h
  rw [decode_eq_ok_iff_layout, String.toList_ofList, Blank.trim_trim_append (by decide)]
  exact ⟨third, bytes, _, hlayout.append _⟩

/-- A text is read as a snapshot if and only if it consists of the four fields of the snapshot's
line and, behind a fifth colon, of anything or nothing. The matrices of a snapshot that is read are
consistent and of a side that the format admits, and whatever is put behind a colon after its text
does not change what is read. -/
theorem decode_exact (text : String) (s : Snapshot) :
    (decode text = .ok s ↔
      ∃ third bytes tail, s.Layout (Blank.trim text.toList) third bytes tail) ∧
    (decode text = .ok s → s.state.matrix.Storable ∧ s.state.target.Storable ∧
      ∀ rest, decode (String.ofList (Blank.trim text.toList ++ ':' :: rest)) = .ok s) := by
  refine ⟨decode_eq_ok_iff_layout, fun h => ?_⟩
  have hstorable := storable_of_decode h
  exact ⟨hstorable.state.matrix, hstorable.state.target, decode_append h⟩

def founding : Snapshot := ⟨0, 0, State.start (Matrix.empty 1) (Matrix.empty 1)⟩

theorem storable_founding : founding.Storable := by
  have hempty : (Matrix.empty 1).Storable := ⟨.empty 1, by decide⟩
  have hstart := State.packable_start hempty hempty
  exact ⟨by decide, by decide, ⟨hstart, by decide⟩⟩

theorem decode_exact_founding : founding.Storable ∧ decode founding.encode = .ok founding ∧
    founding.state.matrix.Storable ∧
    decode (String.ofList (Blank.trim founding.encode.toList ++ ':' :: ['x'])) = .ok founding := by
  have hread := decode_encode storable_founding
  obtain ⟨-, haccepted⟩ := decode_exact founding.encode founding
  obtain ⟨hmatrix, -, happend⟩ := haccepted hread
  exact ⟨storable_founding, hread, hmatrix, happend ['x']⟩

/-- A line with a fifth field is read, although its fields are more than a snapshot has. -/
theorem decode_fifth_field :
    decode (founding.encode ++ ":x") = .ok founding ∧
    ¬∃ third bytes,
      founding.Layout (Blank.trim (founding.encode ++ ":x").toList) third bytes [] := by
  have htext : (founding.encode ++ ":x").toList = founding.encode.toList ++ ':' :: ['x'] := by
    rw [String.toList_append]
    rfl
  have htrim : Blank.trim founding.encode.toList = founding.encode.toList := by
    simpa only [List.nil_append, List.append_nil] using
      trim_encode founding (List.forall_mem_nil _) (List.forall_mem_nil _)
  have hread := decode_encode storable_founding
  have hreadMore := decode_append hread ['x']
  rw [htrim, ← htext, String.ofList_toList] at hreadMore
  refine ⟨hreadMore, ?_⟩
  obtain ⟨_, _, _, hline⟩ := decode_eq_ok_iff_layout.1 hread
  rw [htext, ← htrim, Blank.trim_trim_append (by decide)]
  exact hline.not_four _

end Snapshot

end VoxelSwarm
