import VoxelSwarm.Json.Decode
import VoxelSwarm.Proofs.Json.Scalars

/-!
# JSON texts are read as they were written

`ofBytes_bytes` says that the compact text of a value is read as that value, if the value holds no
floating-point number and its integers fit 64 bits (`Plain`). The induction is over the value, with
any bytes after its text that do not belong to a number, and twice the length of the text as fuel.
So a decoder does to the text what it does to the value (`run_bytes`).
-/

namespace VoxelSwarm.Json

mutual

/-- A value without floating-point numbers, whose integers fit 64 bits. -/
def Plain : Json → Prop
  | .int n => -(2 : Int) ^ 63 ≤ n ∧ n < 2 ^ 64
  | .float _ => False
  | .array items => PlainItems items
  | .object members => PlainMembers members
  | _ => True

def PlainItems : List Json → Prop
  | [] => True
  | item :: rest => item.Plain ∧ PlainItems rest

def PlainMembers : List (String × Json) → Prop
  | [] => True
  | (_, value) :: rest => value.Plain ∧ PlainMembers rest

end

theorem plainItems_map {α : Type} {toJson : α → Json} {xs : List α}
    (h : ∀ x ∈ xs, (toJson x).Plain) : PlainItems (xs.map toJson) := by
  induction xs with
  | nil => trivial
  | cons x xs ih =>
    obtain ⟨hx, hxs⟩ := List.forall_mem_cons.1 h
    exact ⟨hx, ih hxs⟩

theorem plain_int {n : Int} (h : -(2 : Int) ^ 63 ≤ n ∧ n < 2 ^ 63) : (int n).Plain :=
  ⟨h.1, Int.lt_trans h.2 (by decide)⟩

theorem plain_nat {n : Nat} (h : n < 2 ^ 64) : (nat n).Plain :=
  ⟨Int.le_trans (by decide) (Int.natCast_nonneg n), Int.ofNat_lt.2 h⟩

namespace Reading

variable {v : Json} {n : Int} {rest : List UInt8} {fuel : Nat}

/-! ## Integers -/

theorem utf8_toString (n : Int) :
    utf8 (toString n).toList = signed (decide (n < 0)) n.natAbs := by
  cases n with
  | ofNat n =>
    have htext : (toString (Int.ofNat n)).toList = Nat.toDigits 10 n := Nat.toList_repr
    rw [htext, utf8_toDigits]
    rfl
  | negSucc n =>
    have htext : (toString (Int.negSucc n)).toList = '-' :: Nat.toDigits 10 (n + 1) := by
      change ("-" ++ toString (n + 1)).toList = _
      rw [String.toList_append, ← Nat.toList_repr]
      rfl
    rw [htext, utf8_cons (by decide), utf8_toDigits, decide_eq_true (Int.negSucc_lt_zero n)]
    rfl

theorem readNumber_toString (h : Stops rest) (hfits : -(2 : Int) ^ 63 ≤ n ∧ n < 2 ^ 64) :
    readNumber (utf8 (toString n).toList ++ rest) = (.number (.ok (numberOfInt n)), .ok rest) := by
  rw [utf8_toString]
  by_cases hneg : n < 0
  · have hmagnitude : 0 < n.natAbs ∧ n.natAbs ≤ 2 ^ 63 := by omega
    have hvalue : -(n.natAbs : Int) = n := by omega
    rw [decide_eq_true hneg, readNumber_signed true h hmagnitude, if_pos rfl, hvalue, numberOfInt,
      if_neg (by omega)]
  · have hmagnitude : n.natAbs < 2 ^ 64 := by omega
    have hvalue : n.natAbs = n.toNat := by omega
    rw [decide_eq_false hneg, readNumber_signed false h hmagnitude, if_neg Bool.false_ne_true,
      hvalue, numberOfInt, if_pos (by omega)]

theorem exists_toString (n : Int) : ∃ byte bytes, utf8 (toString n).toList = byte :: bytes ∧
    (byte = ascii '-' ∨ isDigit byte = true) := by
  rw [utf8_toString, signed]
  split
  · exact ⟨_, _, rfl, .inl rfl⟩
  · cases hdigits : digits n.natAbs with
    | nil => exact absurd hdigits (digits_ne_nil _)
    | cons byte bytes =>
      exact ⟨byte, bytes, rfl, .inr (isDigit_of_mem_digits (hdigits ▸ List.mem_cons_self))⟩

theorem ne_ascii_of_number {byte : UInt8} (h : byte = ascii '-' ∨ isDigit byte = true) {c : Char}
    (hc : ascii '-' ≠ ascii c ∧ isDigit (ascii c) = false) : byte ≠ ascii c := by
  rcases h with rfl | h
  · exact hc.1
  · rintro rfl
    exact Bool.false_ne_true (hc.2.symm.trans h)

theorem isBlank_of_number {byte : UInt8} (h : byte = ascii '-' ∨ isDigit byte = true) :
    isBlank byte = false := by
  have hne : ∀ c ∈ [' ', '\n', '\t', '\r'], byte ≠ ascii c := by
    simp only [List.mem_cons, List.not_mem_nil, or_false]
    rintro c (rfl | rfl | rfl | rfl) <;> exact ne_ascii_of_number h (by decide)
  simp [isBlank, hne]

theorem readValue_number {byte : UInt8} (h : byte = ascii '-' ∨ isDigit byte = true) :
    readValue (fuel + 1) (byte :: rest) = readNumber (byte :: rest) := by
  have hne : ∀ c ∈ ['n', 't', 'f'], byte ≠ ascii c := by
    simp only [List.mem_cons, List.not_mem_nil, or_false]
    rintro c (rfl | rfl | rfl) <;> exact ne_ascii_of_number h (by decide)
  rw [readValue, skipBlanks, List.dropWhile_cons_of_neg (by simp [isBlank_of_number h])]
  simp [hne, h]

/-! ## Arrays -/

theorem exists_chars (h : v.Plain) : ∃ byte bytes, utf8 v.chars = byte :: bytes ∧
    isBlank byte = false ∧ byte ≠ ascii ']' := by
  have hascii : ∀ (c : Char) (cs : List Char), c.toNat < 128 →
      isBlank (ascii c) = false → ascii c ≠ ascii ']' →
      ∃ byte bytes, utf8 (c :: cs) = byte :: bytes ∧ isBlank byte = false ∧ byte ≠ ascii ']' :=
    fun c cs hc hblank hne => ⟨_, _, utf8_cons hc cs, hblank, hne⟩
  cases v with
  | null => exact hascii 'n' _ (by decide) rfl (by decide)
  | bool b => cases b <;> exact hascii _ _ (by decide) rfl (by decide)
  | int n =>
    obtain ⟨byte, bytes, htext, hfirst⟩ := exists_toString n
    exact ⟨byte, bytes, htext, isBlank_of_number hfirst, ne_ascii_of_number hfirst (by decide)⟩
  | float x => exact h.elim
  | string s => exact hascii '"' _ (by decide) rfl (by decide)
  | array items => exact hascii '[' _ (by decide) rfl (by decide)
  | object members => exact hascii '\x7b' _ (by decide) rfl (by decide)

theorem readValue_array {byte : UInt8} {bytes : List UInt8} (hblank : isBlank byte = false)
    (hne : byte ≠ ascii ']') :
    readValue (fuel + 1) (ascii '[' :: byte :: bytes) = readItems fuel [] (byte :: bytes) := by
  have hskip : skipBlanks (ascii '[' :: byte :: bytes) = ascii '[' :: byte :: bytes :=
    List.dropWhile_cons_of_neg (by decide)
  have hskip' : skipBlanks (byte :: bytes) = byte :: bytes :=
    List.dropWhile_cons_of_neg (by simp [hblank])
  rw [readValue, hskip]
  dsimp only
  rw [if_neg (by decide), if_neg (by decide), if_neg (by decide), if_neg (by decide),
    if_neg (by decide), if_pos rfl, hskip']
  exact if_neg hne

theorem readItems_more {item : Reading} {text : List UInt8} {done : List Reading}
    (h : readValue fuel text = (item, .ok (ascii ',' :: rest))) :
    readItems (fuel + 1) done text = readItems fuel (item :: done) rest := by
  rw [readItems, h]
  rfl

theorem readItems_last {item : Reading} {text : List UInt8} {done : List Reading}
    (h : readValue fuel text = (item, .ok (ascii ']' :: rest))) :
    readItems (fuel + 1) done text = (.array (done.reverse ++ [item]) none, .ok rest) := by
  rw [readItems, h, ← List.reverse_cons]
  rfl

/-! ## Objects -/

theorem readValue_object {bytes : List UInt8} :
    readValue (fuel + 1) (ascii '\x7b' :: ascii '"' :: bytes) =
      readMembers fuel [] (ascii '"' :: bytes) := rfl

theorem utf8_quotedChars (key : String) (text : List UInt8) :
    utf8 (quotedChars key) ++ text =
      ascii '"' :: (utf8 (key.toList.flatMap escaped) ++ ascii '"' :: text) := by
  rw [quotedChars, List.cons_append, utf8_cons (by decide), utf8_append, List.cons_append,
    List.append_assoc]
  rfl

theorem skipBlanks_ascii {c : Char} (h : isBlank (ascii c) = false) (text : List UInt8) :
    skipBlanks (ascii c :: text) = ascii c :: text :=
  List.dropWhile_cons_of_neg (by simp [h])

variable {key : String} {value : Reading} {text : List UInt8} {done : List (Reading × Reading)}

theorem readMembers_more (h : readValue fuel text = (value, .ok (ascii ',' :: rest))) :
    readMembers (fuel + 1) done (utf8 (quotedChars key) ++ ascii ':' :: text) =
      readMembers fuel ((.string (.ok key), value) :: done) rest := by
  rw [utf8_quotedChars, readMembers, skipBlanks_ascii rfl]
  simp only [ne_eq, not_true_eq_false, if_false, readString_quoted]
  rw [skipBlanks_ascii rfl]
  simp only [not_true_eq_false, if_false, h]
  rw [skipBlanks_ascii rfl]
  exact if_pos rfl

theorem readMembers_last (h : readValue fuel text = (value, .ok (ascii '\x7d' :: rest))) :
    readMembers (fuel + 1) done (utf8 (quotedChars key) ++ ascii ':' :: text) =
      (.object (done.reverse ++ [(.string (.ok key), value)]) none, .ok rest) := by
  rw [utf8_quotedChars, readMembers, skipBlanks_ascii rfl]
  simp only [ne_eq, not_true_eq_false, if_false, readString_quoted]
  rw [skipBlanks_ascii rfl]
  simp only [not_true_eq_false, if_false, h]
  rw [skipBlanks_ascii rfl, ← List.reverse_cons]
  rfl

/-! ## Values -/

theorem stops_ascii {c : Char} (h : isDigit (ascii c) = false ∧ ascii c ≠ ascii '.' ∧
    ascii c ≠ ascii 'e' ∧ ascii c ≠ ascii 'E') (rest : List UInt8) : Stops (ascii c :: rest) :=
  fun byte hbyte => by
    obtain rfl : ascii c = byte := by simpa using hbyte
    exact h

theorem utf8_commaSeparated_singleton (piece : List Char) :
    utf8 (commaSeparated [piece]) = utf8 piece := by
  rw [commaSeparated, List.flatMap_nil, List.append_nil]

theorem utf8_commaSeparated_cons (first second : List Char) (pieces : List (List Char)) :
    utf8 (commaSeparated (first :: second :: pieces)) =
      utf8 first ++ ascii ',' :: utf8 (commaSeparated (second :: pieces)) := by
  rw [commaSeparated, List.flatMap_cons, utf8_append, List.cons_append, utf8_cons (by decide),
    commaSeparated]

theorem exists_items {item : Json} (h : item.Plain) (items : List Json) :
    ∃ byte bytes, utf8 (commaSeparated (itemChars (item :: items))) = byte :: bytes ∧
      isBlank byte = false ∧ byte ≠ ascii ']' := by
  obtain ⟨byte, bytes, hbytes, hfirst⟩ := exists_chars h
  refine ⟨byte, bytes ++ utf8 ((itemChars items).flatMap (',' :: ·)), ?_, hfirst⟩
  rw [itemChars, commaSeparated, utf8_append, hbytes, List.cons_append]

theorem utf8_array (items : List Json) (rest : List UInt8) :
    utf8 (Json.array items).chars ++ rest =
      ascii '[' :: (utf8 (commaSeparated (itemChars items)) ++ ascii ']' :: rest) := by
  rw [chars, List.cons_append, utf8_cons (by decide), utf8_append, List.cons_append,
    List.append_assoc]
  rfl

theorem utf8_object (members : List (String × Json)) (rest : List UInt8) :
    utf8 (Json.object members).chars ++ rest =
      ascii '\x7b' :: (utf8 (commaSeparated (memberChars members)) ++ ascii '\x7d' :: rest) := by
  rw [chars, List.cons_append, utf8_cons (by decide), utf8_append, List.cons_append,
    List.append_assoc]
  rfl

theorem utf8_member (key : String) (value : Json) (rest : List UInt8) :
    utf8 (quotedChars key ++ ':' :: value.chars) ++ rest =
      utf8 (quotedChars key) ++ ascii ':' :: (utf8 value.chars ++ rest) := by
  rw [utf8_append, utf8_cons (by decide), List.append_assoc, List.cons_append]

theorem exists_members (key : String) (value : Json) (members : List (String × Json)) :
    ∃ bytes, utf8 (commaSeparated (memberChars ((key, value) :: members))) =
      ascii '"' :: bytes := by
  rw [memberChars, commaSeparated, quotedChars, List.cons_append, List.cons_append,
    List.cons_append, utf8_cons (by decide)]
  exact ⟨_, rfl⟩

mutual

/-- The text of a plain value is read as that value, whatever follows it. -/
theorem readValue_chars : ∀ (v : Json), v.Plain → ∀ (fuel : Nat) (rest : List UInt8), Stops rest →
    2 * (utf8 v.chars).length ≤ fuel → readValue fuel (utf8 v.chars ++ rest) = (v.reading, .ok rest)
  | .null, _, fuel + 1, rest, _, _ => word_utf8 .null ['u', 'l', 'l'] (by simp) rest
  | .bool false, _, fuel + 1, rest, _, _ =>
    word_utf8 (.bool false) ['a', 'l', 's', 'e'] (by simp) rest
  | .bool true, _, fuel + 1, rest, _, _ => word_utf8 (.bool true) ['r', 'u', 'e'] (by simp) rest
  | .int n, h, fuel + 1, rest, hrest, _ => by
    obtain ⟨byte, bytes, htext, hfirst⟩ := exists_toString n
    rw [chars, htext, List.cons_append, readValue_number hfirst, ← List.cons_append, ← htext,
      readNumber_toString hrest h, reading]
  | .float _, h, _, _, _, _ => h.elim
  | .string s, _, fuel + 1, rest, _, _ => by
    rw [chars, utf8_quotedChars]
    exact readString_quoted s rest
  | .array [], _, fuel + 1, rest, _, _ => rfl
  | .array (item :: items), h, fuel + 1, rest, _, hfuel => by
    obtain ⟨byte, bytes, hbytes, hblank, hne⟩ := exists_items h.1 items
    have hlength := congrArg List.length (utf8_array (item :: items) [])
    simp only [List.append_nil, List.length_cons, List.length_append, List.length_nil] at hlength
    have hitems := readItems_chars item items h fuel [] rest (by omega)
    rw [utf8_array, hbytes, List.cons_append, readValue_array hblank hne, ← List.cons_append,
      ← hbytes, hitems]
    rfl
  | .object [], _, fuel + 1, rest, _, _ => rfl
  | .object ((key, value) :: members), h, fuel + 1, rest, _, hfuel => by
    obtain ⟨bytes, hbytes⟩ := exists_members key value members
    have hlength := congrArg List.length (utf8_object ((key, value) :: members) [])
    simp only [List.append_nil, List.length_cons, List.length_append, List.length_nil] at hlength
    have hmembers := readMembers_chars key value members h fuel [] rest (by omega)
    rw [utf8_object, hbytes, List.cons_append, readValue_object, ← List.cons_append, ← hbytes,
      hmembers]
    rfl
  | v, h, 0, _, _, hfuel => by
    obtain ⟨byte, bytes, hbytes, -⟩ := exists_chars h
    rw [hbytes, List.length_cons] at hfuel
    omega

theorem readItems_chars : ∀ (item : Json) (items : List Json), PlainItems (item :: items) →
    ∀ (fuel : Nat) (done : List Reading) (rest : List UInt8),
    2 * (utf8 (commaSeparated (itemChars (item :: items)))).length < fuel →
    readItems fuel done (utf8 (commaSeparated (itemChars (item :: items))) ++ ascii ']' :: rest) =
      (.array (done.reverse ++ itemReadings (item :: items)) none, .ok rest)
  | item, [], h, fuel + 1, done, rest, hfuel => by
    rw [itemChars, itemChars, utf8_commaSeparated_singleton] at hfuel ⊢
    have hitem := readValue_chars item h.1 fuel (ascii ']' :: rest) (stops_ascii (by decide) _)
      (by omega)
    exact readItems_last hitem
  | item, next :: items, h, fuel + 1, done, rest, hfuel => by
    have hsplit := utf8_commaSeparated_cons item.chars next.chars (itemChars items)
    have hlength := congrArg List.length hsplit
    simp only [List.length_append, List.length_cons] at hlength
    simp only [itemChars] at hfuel ⊢
    have hitem := readValue_chars item h.1 fuel
      (ascii ',' :: (utf8 (commaSeparated (next.chars :: itemChars items)) ++ ascii ']' :: rest))
      (stops_ascii (by decide) _) (by omega)
    have hitems := readItems_chars next items h.2 fuel (item.reading :: done) rest (by
      simp only [itemChars]
      omega)
    rw [hsplit, List.append_assoc, List.cons_append, readItems_more hitem]
    simpa [itemChars, itemReadings] using hitems

theorem readMembers_chars : ∀ (key : String) (value : Json) (members : List (String × Json)),
    PlainMembers ((key, value) :: members) →
    ∀ (fuel : Nat) (done : List (Reading × Reading)) (rest : List UInt8),
    2 * (utf8 (commaSeparated (memberChars ((key, value) :: members)))).length < fuel →
    readMembers fuel done
        (utf8 (commaSeparated (memberChars ((key, value) :: members))) ++ ascii '\x7d' :: rest) =
      (.object (done.reverse ++ memberReadings ((key, value) :: members)) none, .ok rest)
  | key, value, [], h, fuel + 1, done, rest, hfuel => by
    rw [memberChars, memberChars, utf8_commaSeparated_singleton] at hfuel ⊢
    have hlength := congrArg List.length (utf8_member key value [])
    simp only [List.append_nil, List.length_append, List.length_cons] at hlength
    have hvalue := readValue_chars value h.1 fuel (ascii '\x7d' :: rest)
      (stops_ascii (by decide) _) (by omega)
    rw [utf8_member]
    exact readMembers_last hvalue
  | key, value, (key', value') :: members, h, fuel + 1, done, rest, hfuel => by
    have hsplit := utf8_commaSeparated_cons (quotedChars key ++ ':' :: value.chars)
      (quotedChars key' ++ ':' :: value'.chars) (memberChars members)
    have hlength := congrArg List.length hsplit
    have hlength' := congrArg List.length (utf8_member key value [])
    simp only [List.append_nil, List.length_append, List.length_cons] at hlength hlength'
    simp only [memberChars] at hfuel ⊢
    have hvalue := readValue_chars value h.1 fuel
      (ascii ',' :: (utf8 (commaSeparated ((quotedChars key' ++ ':' :: value'.chars) ::
        memberChars members)) ++ ascii '\x7d' :: rest))
      (stops_ascii (by decide) _) (by omega)
    have hmembers := readMembers_chars key' value' members h.2 fuel
      ((.string (.ok key), value.reading) :: done) rest (by
        simp only [memberChars]
        omega)
    rw [hsplit, List.append_assoc, List.cons_append, utf8_member, readMembers_more hvalue]
    simpa [memberChars, memberReadings] using hmembers

end

theorem ofBytes_bytes {v : Json} (h : v.Plain) : ofBytes v.bytes = (v.reading, none) := by
  have hbytes : v.bytes = utf8 v.chars := by
    rw [Json.bytes, Utf8.encode, text, String.toList_ofList, utf8]
  have hread := readValue_chars v h (2 * v.bytes.length + 2) [] (by simp [Stops]) (by
    rw [hbytes]
    omega)
  rw [List.append_nil, ← hbytes] at hread
  rw [ofBytes, hread]
  rfl

end Reading

theorem Decoder.run_bytes {α : Type} (decoder : Decoder α) {v : Json} (h : v.Plain) :
    decoder.run v.bytes = decoder v.reading := by
  rw [Decoder.run, Reading.ofBytes_bytes h]
  dsimp only
  cases decoder v.reading <;> rfl

end VoxelSwarm.Json
