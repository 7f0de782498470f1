import Mathlib.Algebra.Order.Ring.Int
import VoxelSwarm.Json.Document
import VoxelSwarm.Proofs.Text.Natural
import VoxelSwarm.Proofs.Text.Utf8

/-!
# Words, numbers and texts in JSON are read as they were written

`readNumber_ofInt` says that an integer which 64 bits hold is read back from its digits when what
follows cannot extend them (`Stops`), and `readString_quoted` that any text is read back from its
quoted form, whatever follows. The quoted form of a character is read as pieces that stand for the
bytes of the character (`Spells`).
-/

namespace VoxelSwarm.Json

def utf8 (cs : List Char) : List UInt8 := cs.flatMap String.utf8EncodeChar

theorem utf8_nil : utf8 [] = [] := rfl

theorem utf8_cons {c : Char} (h : c.toNat < 128) (cs : List Char) :
    utf8 (c :: cs) = ascii c :: utf8 cs := by
  rw [utf8, List.flatMap_cons, Utf8.utf8EncodeChar_of_lt h]
  rfl

theorem utf8_eq_map {cs : List Char} (h : ∀ c ∈ cs, c.toNat < 128) : utf8 cs = cs.map ascii := by
  induction cs with
  | nil => rfl
  | cons c cs ih =>
    obtain ⟨hc, hcs⟩ := List.forall_mem_cons.1 h
    rw [utf8_cons hc, ih hcs, List.map_cons]

theorem utf8_append (cs ds : List Char) : utf8 (cs ++ ds) = utf8 cs ++ utf8 ds :=
  List.flatMap_append

theorem toNat_ascii {c : Char} (h : c.toNat < 128) : (ascii c).toNat = c.toNat :=
  Utf8.toNat_ofNat (by omega)

namespace Reading

variable {n : Nat} {rest : List UInt8}

/-! ## Words -/

theorem word_utf8 (value : Reading) (cs : List Char) (h : ∀ c ∈ cs, c.toNat < 128)
    (rest : List UInt8) : word value cs (utf8 cs ++ rest) = (value, .ok rest) := by
  induction cs with
  | nil => rfl
  | cons c cs ih =>
    obtain ⟨hc, hcs⟩ := List.forall_mem_cons.1 h
    rw [utf8_cons hc, List.cons_append, word, if_pos rfl, ih hcs]

/-! ## Numbers -/

/-- What follows a number does not belong to it. -/
def Stops (rest : List UInt8) : Prop :=
  ∀ byte ∈ rest.head?, isDigit byte = false ∧ byte ≠ ascii '.' ∧ byte ≠ ascii 'e' ∧ byte ≠ ascii 'E'

def digits (n : Nat) : List UInt8 := (Nat.toDigits 10 n).map ascii

theorem lt_of_mem_toDigits {c : Char} (h : c ∈ Nat.toDigits 10 n) : c.toNat < 128 :=
  Nat.lt_of_le_of_lt (Char.isDigit_iff_toNat.1 (Natural.isDigit_of_mem h)).2 (by decide)

theorem utf8_toDigits (n : Nat) : utf8 (Nat.toDigits 10 n) = digits n :=
  utf8_eq_map fun _ => lt_of_mem_toDigits

theorem isDigit_of_mem_digits {byte : UInt8} (h : byte ∈ digits n) : isDigit byte = true := by
  obtain ⟨c, hc, rfl⟩ := List.mem_map.1 h
  have hrange := Char.isDigit_iff_toNat.1 (Natural.isDigit_of_mem hc)
  rw [isDigit, toNat_ascii (lt_of_mem_toDigits hc)]
  simpa using hrange

theorem digits_ne_nil (n : Nat) : digits n ≠ [] := by simp [digits]

theorem someDigits_digits (h : Stops rest) :
    someDigits (digits n ++ rest) = .ok ((digits n).map digitValue, rest) := by
  have hall : ∀ byte ∈ digits n, isDigit byte = true := fun byte => isDigit_of_mem_digits
  have hstop : rest.takeWhile isDigit = [] ∧ rest.dropWhile isDigit = rest := by
    cases rest with
    | nil => exact ⟨rfl, rfl⟩
    | cons byte rest =>
      have hfalse := (h byte (by simp)).1
      simp [hfalse]
  rw [someDigits, List.takeWhile_append_of_pos hall, List.dropWhile_append_of_pos hall, hstop.1,
    hstop.2, List.append_nil]
  cases hdigits : digits n with
  | nil => exact absurd hdigits (digits_ne_nil n)
  | cons byte bytes => rfl

theorem digitValue_ascii {c : Char} (h : c ∈ Nat.toDigits 10 n) :
    digitValue (ascii c) = c.toNat - 48 := by
  rw [digitValue, toNat_ascii (lt_of_mem_toDigits h)]

theorem foldl_digits (n : Nat) :
    ((digits n).map digitValue).foldl (fun n d => n * 10 + d) 0 = n := by
  have hvalues : (digits n).map digitValue = (Nat.toDigits 10 n).map fun c => c.toNat - 48 := by
    rw [digits, List.map_map]
    exact List.map_congr_left fun _ => digitValue_ascii
  rw [hvalues, List.foldl_map]
  exact Natural.ofDigits_toDigits n

theorem wholePart_digits (h : Stops rest) :
    wholePart (digits n ++ rest) = .ok ((digits n).map digitValue, rest) := by
  rw [wholePart, someDigits_digits h]
  rcases Nat.eq_zero_or_pos n with rfl | hpos
  · rfl
  · obtain ⟨d, cs, hd, hlt, hdigits⟩ := Natural.exists_toDigits hpos
    have hvalue : digitValue (ascii d.digitChar) = d := by
      rw [digitValue_ascii (n := n) (hdigits ▸ List.mem_cons_self),
        Nat.toNat_digitChar_sub_48_of_lt_ten hlt]
    rw [digits, hdigits, List.map_cons, List.map_cons, hvalue]
    cases d with
    | zero => exact absurd hd (Nat.lt_irrefl 0)
    | succ d => rfl

theorem minusSign_digits (n : Nat) (rest : List UInt8) :
    minusSign (digits n ++ rest) = (false, digits n ++ rest) := by
  cases hdigits : digits n with
  | nil => exact absurd hdigits (digits_ne_nil n)
  | cons byte bytes =>
    have hdigit : isDigit byte = true := isDigit_of_mem_digits (hdigits ▸ List.mem_cons_self)
    have hne : byte ≠ ascii '-' := by
      rintro rfl
      exact absurd hdigit (by decide)
    rw [List.cons_append, minusSign, if_neg hne]

theorem fractionPart_of_stops (h : Stops rest) : fractionPart rest = .ok (none, rest) := by
  cases rest with
  | nil => rfl
  | cons byte rest => rw [fractionPart, if_neg (h byte rfl).2.1]

theorem exponentPart_of_stops (h : Stops rest) : exponentPart rest = .ok (none, rest) := by
  cases rest with
  | nil => rfl
  | cons byte rest =>
    obtain ⟨-, -, he, hE⟩ := h byte rfl
    simp [exponentPart, he, hE]

/-- The digits of a number with a minus sign before them or none. -/
def signed (negative : Bool) (n : Nat) : List UInt8 :=
  if negative then ascii '-' :: digits n else digits n

theorem literal_signed (negative : Bool) (h : Stops rest) :
    literal (signed negative n ++ rest) =
      .ok (⟨negative, (digits n).map digitValue, none, none⟩, rest) := by
  have hsign : minusSign (signed negative n ++ rest) = (negative, digits n ++ rest) := by
    cases negative with
    | false => exact minusSign_digits n rest
    | true => rfl
  rw [literal, hsign]
  simp only [wholePart_digits h, fractionPart_of_stops h, exponentPart_of_stops h, bind,
    Except.bind]
  rfl

theorem readNumber_signed (negative : Bool) (h : Stops rest)
    (hfits : if negative then 0 < n ∧ n ≤ 2 ^ 63 else n < 2 ^ 64) :
    readNumber (signed negative n ++ rest) =
      (.number (.ok (if negative then .signed (-n) else .unsigned n)), .ok rest) := by
  rw [readNumber, literal_signed negative h]
  simp only [Literal.value?, foldl_digits]
  cases negative with
  | false =>
    have hle : n ≤ Literal.greatest := Nat.le_sub_one_of_lt hfits
    simp [hle]
  | true =>
    obtain ⟨hpos, hle⟩ := hfits
    have hle' : n ≤ Nat.pow 2 63 := hle
    simp [hpos, hle']

/-! ## Quoted texts -/

/-- The pieces stand for the bytes. -/
def Spells (ps : List Piece) (bytes : List UInt8) : Prop :=
  ∀ done rest, join done (ps ++ rest) = join (bytes.reverse ++ done) rest

variable {c : Char} {ps qs : List Piece} {bytes bytes' : List UInt8}

theorem Spells.append (h : Spells ps bytes) (h' : Spells qs bytes') :
    Spells (ps ++ qs) (bytes ++ bytes') := fun done rest => by
  rw [List.append_assoc, h, h', List.reverse_append, List.append_assoc]

theorem spells_bytes (bytes : List UInt8) : Spells (bytes.map .byte) bytes := fun done rest => by
  induction bytes generalizing done with
  | nil => rfl
  | cons byte bytes ih =>
    rw [List.map_cons, List.cons_append, join, ih, List.reverse_cons, List.append_assoc]
    rfl

theorem spells_unit (h : c.toNat < 128) :
    Spells [.unit c.toNat] (String.utf8EncodeChar c) := fun done rest => by
  rw [List.singleton_append, join.eq_def]
  simp only [if_neg (show ¬(0xDC00 ≤ c.toNat ∧ c.toNat < 0xE000) by omega),
    if_neg (show ¬(0xD800 ≤ c.toNat ∧ c.toNat < 0xDC00) by omega), Char.ofNat_toNat]

/-- Bytes that stand for themselves inside quotes. -/
def Ordinary (byte : UInt8) : Prop := 32 ≤ byte.toNat ∧ byte ≠ ascii '"' ∧ byte ≠ ascii '\\'

theorem pieces_of_ordinary (done : List Piece) (rest : List UInt8)
    (h : ∀ byte ∈ bytes, Ordinary byte) :
    pieces done (bytes ++ rest) = pieces ((bytes.map .byte).reverse ++ done) rest := by
  induction bytes generalizing done with
  | nil => rfl
  | cons byte bytes ih =>
    obtain ⟨⟨hleast, hquote, hslash⟩, hrest⟩ := List.forall_mem_cons.1 h
    rw [List.cons_append, pieces.eq_def]
    simp only [if_neg hquote, if_neg hslash, if_neg (Nat.not_lt.2 hleast)]
    rw [ih _ hrest]
    simp

theorem ascii_inj {d : Char} (hc : c.toNat < 128) (hd : d.toNat < 128) (h : ascii c = ascii d) :
    c = d := by
  have htoNat := congrArg UInt8.toNat h
  rw [toNat_ascii hc, toNat_ascii hd] at htoNat
  exact Char.toNat_inj.1 htoNat

theorem le_of_mem_utf8EncodeChar (h : 128 ≤ c.toNat) {byte : UInt8}
    (hbyte : byte ∈ String.utf8EncodeChar c) : 128 ≤ byte.toNat := by
  simp only [String.utf8EncodeChar, Char.toNat_val] at hbyte
  rw [if_neg (by omega)] at hbyte
  split at hbyte
  · simp only [List.mem_cons, List.not_mem_nil, or_false] at hbyte
    rcases hbyte with rfl | rfl <;> rw [Utf8.toNat_ofNat (by omega)] <;> omega
  · split at hbyte
    · simp only [List.mem_cons, List.not_mem_nil, or_false] at hbyte
      rcases hbyte with rfl | rfl | rfl <;> rw [Utf8.toNat_ofNat (by omega)] <;> omega
    · simp only [List.mem_cons, List.not_mem_nil, or_false] at hbyte
      rcases hbyte with rfl | rfl | rfl | rfl <;> rw [Utf8.toNat_ofNat (by omega)] <;> omega

theorem ordinary_of_mem (hleast : 32 ≤ c.toNat) (hquote : c ≠ '"') (hslash : c ≠ '\\')
    {byte : UInt8} (h : byte ∈ String.utf8EncodeChar c) : Ordinary byte := by
  by_cases hascii : c.toNat < 128
  · rw [Utf8.utf8EncodeChar_of_lt hascii, List.mem_singleton] at h
    obtain rfl : byte = ascii c := h
    exact ⟨by rwa [toNat_ascii hascii], fun heq => hquote (ascii_inj hascii (by decide) heq),
      fun heq => hslash (ascii_inj hascii (by decide) heq)⟩
  · have hle := le_of_mem_utf8EncodeChar (Nat.le_of_not_lt hascii) h
    refine ⟨Nat.le_trans (by decide) hle, ?_, ?_⟩ <;> rintro rfl <;> exact absurd hle (by decide)

theorem pieces_letter {l : Char} (h : c.toNat < 128 ∧ l.toNat < 128 ∧ ascii l ≠ ascii 'u' ∧
      escape? (ascii l) = some (ascii c)) :
    ∃ ps, Spells ps (String.utf8EncodeChar c) ∧
      ∀ done rest, pieces done (utf8 ['\\', l] ++ rest) = pieces (ps.reverse ++ done) rest := by
  obtain ⟨hc, hl, hne, hcode⟩ := h
  rw [Utf8.utf8EncodeChar_of_lt hc]
  refine ⟨[.byte (ascii c)], spells_bytes [ascii c], fun done rest => ?_⟩
  rw [utf8_cons (by decide), utf8_cons hl, utf8_nil, List.cons_append, List.singleton_append,
    pieces.eq_def]
  simp only [if_neg (show ascii '\\' ≠ ascii '"' by decide), if_true, if_neg hne, hcode]
  rfl

theorem pieces_unicode (h : c.toNat < 32) : ∃ ps, Spells ps (String.utf8EncodeChar c) ∧
    ∀ done rest,
      pieces done (utf8 ['\\', 'u', '0', '0', hexDigit (c.toNat / 16), hexDigit c.toNat] ++ rest) =
        pieces (ps.reverse ++ done) rest := by
  have hdigits : ∀ n < 32, (hexDigit (n / 16)).toNat < 128 ∧ (hexDigit n).toNat < 128 ∧
      hexUnit? (ascii '0') (ascii '0') (ascii (hexDigit (n / 16))) (ascii (hexDigit n)) =
        some n := by decide
  obtain ⟨hhigh, hlow, hcode⟩ := hdigits c.toNat h
  refine ⟨[.unit c.toNat], spells_unit (by omega), fun done rest => ?_⟩
  rw [utf8_cons (by decide), utf8_cons (by decide), utf8_cons (by decide), utf8_cons (by decide),
    utf8_cons hhigh, utf8_cons hlow, utf8_nil, pieces.eq_def]
  simp only [List.cons_append, List.nil_append, if_neg (show ascii '\\' ≠ ascii '"' by decide),
    if_true, hcode]
  rfl

/-- The quoted form of a character is read as pieces that stand for it. -/
theorem pieces_escaped (c : Char) : ∃ ps, Spells ps (String.utf8EncodeChar c) ∧
    ∀ done rest, pieces done (utf8 (escaped c) ++ rest) = pieces (ps.reverse ++ done) rest := by
  unfold escaped
  split
  · next hc =>
    subst hc
    exact pieces_letter (by decide)
  split
  · next hc =>
    subst hc
    exact pieces_letter (by decide)
  split
  · next hc =>
    subst hc
    exact pieces_letter (by decide)
  split
  · next hc =>
    subst hc
    exact pieces_letter (by decide)
  split
  · next hc =>
    subst hc
    exact pieces_letter (by decide)
  split
  · next hc =>
    obtain rfl : c = '\x08' := Char.toNat_inj.1 hc
    exact pieces_letter (by decide)
  split
  · next hc =>
    obtain rfl : c = '\x0c' := Char.toNat_inj.1 hc
    exact pieces_letter (by decide)
  split
  · next hc => exact pieces_unicode hc
  · next hquote hslash _ _ _ _ _ hleast =>
    refine ⟨_, spells_bytes (String.utf8EncodeChar c), fun done rest => ?_⟩
    rw [utf8, List.flatMap_singleton]
    exact pieces_of_ordinary done rest fun byte hbyte =>
      ordinary_of_mem (Nat.le_of_not_lt hleast) hquote hslash hbyte

theorem pieces_quoted (cs : List Char) : ∃ ps, Spells ps (utf8 cs) ∧
    ∀ done rest, pieces done (utf8 (cs.flatMap escaped) ++ ascii '"' :: rest) =
      (done.reverse ++ ps, .ok rest) := by
  induction cs with
  | nil =>
    refine ⟨[], spells_bytes [], fun done rest => ?_⟩
    rw [List.flatMap_nil, utf8_nil, List.nil_append, List.append_nil, pieces.eq_def]
    rfl
  | cons c cs ih =>
    obtain ⟨ps, hps, hread⟩ := pieces_escaped c
    obtain ⟨qs, hqs, hrest⟩ := ih
    refine ⟨ps ++ qs, ?_, fun done rest => ?_⟩
    · rw [utf8, List.flatMap_cons]
      exact hps.append hqs
    · rw [List.flatMap_cons, utf8_append, List.append_assoc, hread, hrest]
      simp

theorem readString_quoted (s : String) (rest : List UInt8) :
    readString (utf8 (s.toList.flatMap escaped) ++ ascii '"' :: rest) =
      (.string (.ok s), .ok rest) := by
  obtain ⟨ps, hps, hread⟩ := pieces_quoted s.toList
  have hjoin : join [] ps = some (utf8 s.toList) := by
    have := hps [] []
    rw [List.append_nil, List.append_nil, join, List.reverse_reverse] at this
    exact this
  have htext : Utf8.decode (utf8 s.toList) = some s := Utf8.decode_encode s
  rw [readString, hread, List.reverse_nil, List.nil_append]
  simp only [content, hjoin, Option.bind_some, htext]

end Reading

end VoxelSwarm.Json
