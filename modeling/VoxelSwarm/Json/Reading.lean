import VoxelSwarm.Json.Number
import VoxelSwarm.Text.Utf8

/-!
# JSON texts as far as they can be read

A text that is not JSON may still begin like one, and what is wrong with the value that it begins to
spell is to be reported before what is wrong with the rest. So a text is read into a `Reading`,
which is a value in which any part may be broken; what stands after the first broken part is not in
it.

A number or a quoted text can be spelled well enough to find its end and still not be usable. It
keeps the fault instead of its value, and the reading goes on after it.
-/

namespace VoxelSwarm.Json

/-- Why a text is not JSON: it ends too early, or something else is wrong. -/
inductive Fault where
  | cutOff
  | malformed
  deriving DecidableEq, Repr

/-- A value in which any part may be broken. -/
inductive Reading where
  /-- The text ends before the value begins. -/
  | absent
  /-- A word or number that is misspelled or cut off, or something that no value begins with. -/
  | broken (fault : Fault)
  | null
  | bool (b : Bool)
  | number (value : Except Fault Number)
  | string (value : Except Fault String)
  /-- The items, and what is wrong with the last one or after it. -/
  | array (items : List Reading) (ending : Option Fault)
  /-- The members, and what is wrong with the last one or after it. A key is a quoted text, absent,
  or broken from its first byte on. -/
  | object (members : List (Reading × Reading)) (ending : Option Fault)
  deriving Inhabited

/-- What is left of a text after a part of it, or why the reading cannot go on. -/
abbrev Rest := Except Fault (List UInt8)

def ascii (c : Char) : UInt8 := c.toNat.toUInt8

/-- The four bytes between parts of a text. -/
def isBlank (byte : UInt8) : Bool :=
  byte == ascii ' ' || byte == ascii '\n' || byte == ascii '\t' || byte == ascii '\r'

/-- The text from its first byte that is not blank. -/
def skipBlanks (text : List UInt8) : List UInt8 := text.dropWhile isBlank

namespace Reading

/-! ## Words and numbers -/

def word (value : Reading) : List Char → List UInt8 → Reading × Rest
  | [], text => (value, .ok text)
  | _ :: _, [] => (.broken .cutOff, .error .cutOff)
  | c :: rest, byte :: text =>
    if byte = ascii c then word value rest text else (.broken .malformed, .error .malformed)

def digitValue (byte : UInt8) : Nat := byte.toNat - 48

def isDigit (byte : UInt8) : Bool := decide (48 ≤ byte.toNat) && decide (byte.toNat ≤ 57)

/-- The digits at the start of a text, at least one, and what follows them. -/
def someDigits (text : List UInt8) : Except Fault (List Nat × List UInt8) :=
  match text.takeWhile isDigit, text.dropWhile isDigit with
  | [], [] => .error .cutOff
  | [], _ :: _ => .error .malformed
  | digits, rest => .ok (digits.map digitValue, rest)

/-- Whether a text starts with a minus sign, and what follows it. -/
def minusSign : List UInt8 → Bool × List UInt8
  | [] => (false, [])
  | byte :: rest => if byte = ascii '-' then (true, rest) else (false, byte :: rest)

/-- The digits after a point, if there is one. -/
def fractionPart : List UInt8 → Except Fault (Option (List Nat) × List UInt8)
  | [] => .ok (none, [])
  | byte :: rest =>
    if byte = ascii '.' then do
      let (digits, rest) ← someDigits rest
      return (some digits, rest)
    else .ok (none, byte :: rest)

/-- The sign and the digits of an exponent, if there is one. -/
def exponentPart : List UInt8 → Except Fault (Option (Bool × List Nat) × List UInt8)
  | [] => .ok (none, [])
  | byte :: rest =>
    if byte = ascii 'e' ∨ byte = ascii 'E' then do
      let (negative, rest) := match rest with
        | [] => (false, [])
        | sign :: after =>
          if sign = ascii '+' then (false, after)
          else if sign = ascii '-' then (true, after)
          else (false, rest)
      let (digits, rest) ← someDigits rest
      return (some (negative, digits), rest)
    else .ok (none, byte :: rest)

/-- The digits before a point, of which the first is zero only if it stands alone. -/
def wholePart (text : List UInt8) : Except Fault (List Nat × List UInt8) :=
  match someDigits text with
  | .error fault => .error fault
  | .ok (0 :: _ :: _, _) => .error .malformed
  | .ok parts => .ok parts

/-- A number as it is spelled, and what follows it. -/
def literal (text : List UInt8) : Except Fault (Literal × List UInt8) := do
  let (negative, text) := minusSign text
  let (whole, text) ← wholePart text
  let (fraction, text) ← fractionPart text
  let (exponent, text) ← exponentPart text
  return (⟨negative, whole, fraction, exponent⟩, text)

def readNumber (text : List UInt8) : Reading × Rest :=
  match literal text with
  | .error fault => (.broken fault, .error .malformed)
  | .ok (l, rest) =>
    match l.value? with
    | none => (.number (.error .malformed), .ok rest)
    | some value => (.number (.ok value), .ok rest)

/-! ## Quoted texts -/

/-- A part of a quoted text: a byte that stands for itself, or sixteen bits from an escape. -/
inductive Piece where
  | byte (b : UInt8)
  | unit (code : Nat)

def hexValue? (byte : UInt8) : Option Nat :=
  let n := byte.toNat
  if 48 ≤ n ∧ n ≤ 57 then some (n - 48)
  else if 97 ≤ n ∧ n ≤ 102 then some (n - 87)
  else if 65 ≤ n ∧ n ≤ 70 then some (n - 55)
  else none

/-- The value of four hexadecimal digits. -/
def hexUnit? (a b c d : UInt8) : Option Nat := do
  return (((← hexValue? a) * 16 + (← hexValue? b)) * 16 + (← hexValue? c)) * 16 + (← hexValue? d)

def escape? (byte : UInt8) : Option UInt8 :=
  if byte = ascii '"' ∨ byte = ascii '\\' ∨ byte = ascii '/' then some byte
  else if byte = ascii 'b' then some 8
  else if byte = ascii 'f' then some 12
  else if byte = ascii 'n' then some 10
  else if byte = ascii 'r' then some 13
  else if byte = ascii 't' then some 9
  else none

/-- The pieces of a quoted text after its opening quote, and what follows its closing one. The
pieces found so far are in reverse. -/
def pieces (done : List Piece) : List UInt8 → List Piece × Rest
  | [] => (done.reverse, .error .cutOff)
  | byte :: text =>
    if byte = ascii '"' then (done.reverse, .ok text)
    else if byte = ascii '\\' then
      match text with
      | [] => (done.reverse, .error .cutOff)
      | letter :: text =>
        if letter = ascii 'u' then
          match text with
          | a :: b :: c :: d :: text =>
            match hexUnit? a b c d with
            | none => (done.reverse, .error .malformed)
            | some code => pieces (.unit code :: done) text
          | _ => (done.reverse, .error .cutOff)
        else
          match escape? letter with
          | none => (done.reverse, .error .malformed)
          | some byte => pieces (.byte byte :: done) text
    else if byte.toNat < 32 then (done.reverse, .error .malformed)
    else pieces (.byte byte :: done) text

/-- The bytes that pieces stand for, in reverse after those found so far. A unit of the first half
of a surrogate pair needs one of the second half right after it; with none, all is well only if the
text ends there. -/
def join (done : List UInt8) : List Piece → Option (List UInt8)
  | [] => some done.reverse
  | .byte b :: rest => join (b :: done) rest
  | .unit code :: rest =>
    if 0xDC00 ≤ code ∧ code < 0xE000 then none
    else if 0xD800 ≤ code ∧ code < 0xDC00 then
      match rest with
      | .unit low :: rest =>
        if 0xDC00 ≤ low ∧ low < 0xE000 then
          let scalar := 0x10000 + (code - 0xD800) * 0x400 + (low - 0xDC00)
          join ((String.utf8EncodeChar (Char.ofNat scalar)).reverse ++ done) rest
        else none
      | _ => none
    else join ((String.utf8EncodeChar (Char.ofNat code)).reverse ++ done) rest

/-- Whether the last piece is the first half of a surrogate pair, of which a text that is cut off
might have had the second half. -/
def endsInHalf (ps : List Piece) : Bool :=
  match ps.getLast? with
  | some (.unit code) => decide (0xD800 ≤ code) && decide (code < 0xDC00)
  | _ => false

/-- The text that pieces stand for, given what is wrong with what follows them. -/
def content (ps : List Piece) (rest : Rest) : Except Fault String :=
  match rest with
  | .error .cutOff =>
    if (join [] (if endsInHalf ps then ps.dropLast else ps)).isNone then .error .malformed
    else .error .cutOff
  | .error .malformed => .error .malformed
  | .ok _ =>
    match (join [] ps).bind Utf8.decode with
    | none => .error .malformed
    | some text => .ok text

/-- Reads a quoted text after its opening quote. -/
def readString (text : List UInt8) : Reading × Rest :=
  let (ps, rest) := pieces [] text
  (.string (content ps rest), rest)

/-! ## Values -/

/-- An array that ends with what follows its last item. -/
def closeArray (done : List Reading) (rest : Rest) : Reading × Rest :=
  (.array done.reverse (match rest with | .error fault => some fault | .ok _ => none), rest)

/-- An object that ends with what follows its last member. -/
def closeObject (done : List (Reading × Reading)) (rest : Rest) : Reading × Rest :=
  (.object done.reverse (match rest with | .error fault => some fault | .ok _ => none), rest)

mutual

/-- Reads a value. Every value and every item or member takes a byte, so twice the length of the
text is `fuel` enough. -/
def readValue : (fuel : Nat) → List UInt8 → Reading × Rest
  | 0, _ => (.absent, .error .cutOff)
  | fuel + 1, text =>
    match skipBlanks text with
    | [] => (.absent, .error .cutOff)
    | byte :: rest =>
      if byte = ascii 'n' then word .null ['u', 'l', 'l'] rest
      else if byte = ascii 't' then word (.bool true) ['r', 'u', 'e'] rest
      else if byte = ascii 'f' then word (.bool false) ['a', 'l', 's', 'e'] rest
      else if byte = ascii '-' ∨ isDigit byte then readNumber (byte :: rest)
      else if byte = ascii '"' then readString rest
      else if byte = ascii '[' then
        match skipBlanks rest with
        | [] => closeArray [] (.error .cutOff)
        | next :: after =>
          if next = ascii ']' then closeArray [] (.ok after) else readItems fuel [] (next :: after)
      else if byte = ascii '\x7b' then
        match skipBlanks rest with
        | [] => closeObject [] (.error .cutOff)
        | next :: after =>
          if next = ascii '\x7d' then closeObject [] (.ok after)
          else readMembers fuel [] (next :: after)
      else (.broken .malformed, .error .malformed)

/-- Reads an item of an array and those after it; the items before it are in reverse. -/
def readItems : (fuel : Nat) → List Reading → List UInt8 → Reading × Rest
  | 0, done, _ => closeArray done (.error .cutOff)
  | fuel + 1, done, text =>
    match readValue fuel text with
    | (item, .error fault) => closeArray (item :: done) (.error fault)
    | (item, .ok rest) =>
      match skipBlanks rest with
      | [] => closeArray (item :: done) (.error .cutOff)
      | byte :: rest =>
        if byte = ascii ',' then readItems fuel (item :: done) rest
        else if byte = ascii ']' then closeArray (item :: done) (.ok rest)
        else closeArray (item :: done) (.error .malformed)

/-- Reads a member of an object and those after it; the members before it are in reverse. -/
def readMembers : (fuel : Nat) → List (Reading × Reading) → List UInt8 → Reading × Rest
  | 0, done, _ => closeObject done (.error .cutOff)
  | fuel + 1, done, text =>
    match skipBlanks text with
    | [] => closeObject ((.absent, .absent) :: done) (.error .cutOff)
    | byte :: rest =>
      if byte ≠ ascii '"' then
        closeObject ((.broken .malformed, .broken .malformed) :: done) (.error .malformed)
      else
        match readString rest with
        | (key, .error fault) => closeObject ((key, .broken fault) :: done) (.error fault)
        | (key, .ok rest) =>
          match skipBlanks rest with
          | [] => closeObject ((key, .absent) :: done) (.error .cutOff)
          | byte :: rest =>
            if byte ≠ ascii ':' then
              closeObject ((key, .broken .malformed) :: done) (.error .malformed)
            else
              match readValue fuel rest with
              | (value, .error fault) => closeObject ((key, value) :: done) (.error fault)
              | (value, .ok rest) =>
                match skipBlanks rest with
                | [] => closeObject ((key, value) :: done) (.error .cutOff)
                | byte :: rest =>
                  if byte = ascii ',' then readMembers fuel ((key, value) :: done) rest
                  else if byte = ascii '\x7d' then closeObject ((key, value) :: done) (.ok rest)
                  else closeObject ((key, value) :: done) (.error .malformed)

end

/-- Reads a whole text, and says what is wrong after the value. -/
def ofBytes (text : List UInt8) : Reading × Option Fault :=
  match readValue (2 * text.length + 2) text with
  | (value, .error fault) => (value, some fault)
  | (value, .ok rest) => (value, if (skipBlanks rest).isEmpty then none else some .malformed)

end Reading

end VoxelSwarm.Json
