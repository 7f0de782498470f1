import VoxelSwarm.Json.Reading
import VoxelSwarm.Text.Quoted
import VoxelSwarm.Text.ShortestDecimal

/-!
# Typed readings

Decoders that take a `Reading` apart into a value of a type. What is wrong is reported in the order
of the text: a decoder goes through the parts of a reading from left to right and stops at the first
that is broken or not what it wants.

`record` decodes a structure, which is an object or the array of its fields in order. Each field
comes once; unknown ones are passed over; the missing ones are looked for at the end.
-/

namespace VoxelSwarm.Json

/-- Why a value is not the one that is wanted. -/
inductive DataError where
  | invalidType (found expected : String)
  | invalidValue (found expected : String)
  | invalidLength (length : Nat) (expected : String)
  | missingField (name : String)
  | duplicateField (name : String)
  | unknownField (name : String) (known : List String)
  | unknownVariant (name : String) (known : List String)
  /-- The value is of the right type, but its parts do not fit together. -/
  | inconsistent (reason : String)
  deriving DecidableEq, Repr

/-- A name in backticks. -/
def ticked (name : String) : String := "\x60" ++ name ++ "\x60"

/-- A choice between names: two are joined, more are listed. -/
def oneOf : List String → String
  | [a, b] => ticked a ++ " or " ++ ticked b
  | names => "one of " ++ ", ".intercalate (names.map ticked)

def DataError.message : DataError → String
  | .invalidType found expected => "invalid type: " ++ found ++ ", expected " ++ expected
  | .invalidValue found expected => "invalid value: " ++ found ++ ", expected " ++ expected
  | .invalidLength length expected =>
    "invalid length " ++ toString length ++ ", expected " ++ expected
  | .missingField name => "missing field " ++ ticked name
  | .duplicateField name => "duplicate field " ++ ticked name
  | .unknownField name known => "unknown field " ++ ticked name ++ ", expected " ++ oneOf known
  | .unknownVariant name known =>
    "unknown variant " ++ ticked name ++ ", expected " ++ oneOf known
  | .inconsistent reason => reason

/-- Why a text does not hold the value that is wanted. -/
inductive ReadError where
  | fault (fault : Fault)
  | data (error : DataError)
  deriving DecidableEq, Repr

/-- What takes a reading apart. -/
abbrev Decoder (α : Type) := Reading → Except ReadError α

namespace Number

def shownInt (n : Int) : String := "integer " ++ ticked (toString n)

def shown : Number → String
  | .unsigned n => shownInt n
  | .signed n => shownInt n
  | .float x => "floating point " ++ ticked (ShortestDecimal.text x)

end Number

namespace Decoder

def shown : Reading → Except ReadError String
  | .absent => .error (.fault .cutOff)
  | .broken fault => .error (.fault fault)
  | .null => .ok "null"
  | .bool true => .ok ("boolean " ++ ticked "true")
  | .bool false => .ok ("boolean " ++ ticked "false")
  | .number (.error fault) => .error (.fault fault)
  | .number (.ok n) => .ok n.shown
  | .string (.error fault) => .error (.fault fault)
  | .string (.ok s) => .ok ("string " ++ Quoted.encode s)
  | .array _ _ => .ok "sequence"
  | .object _ _ => .ok "map"

def wrongType {α : Type} (expected : String) : Decoder α := fun r => do
  throw (.data (.invalidType (← shown r) expected))

/-- Refuses an integer that is not between `least` and `greatest`. -/
def checkRange (least greatest : Int) (expected : String) (n : Int) : Except ReadError Int :=
  if least ≤ n ∧ n ≤ greatest then .ok n
  else .error (.data (.invalidValue (Number.shownInt n) expected))

/-- An integer from `least` to `greatest`. -/
def integer (least greatest : Int) (expected : String) : Decoder Int
  | .number (.ok (.unsigned n)) => checkRange least greatest expected n
  | .number (.ok (.signed n)) => checkRange least greatest expected n
  | r => wrongType expected r

/-- A natural number below a power of two. -/
def natural (bits : Nat) (expected : String) : Decoder Nat := fun r => do
  return (← integer 0 (Nat.pow 2 bits - 1) expected r).toNat

/-- An integer of a number of bits, one of which is its sign. -/
def signed (bits : Nat) (expected : String) : Decoder Int :=
  integer (-Nat.pow 2 (bits - 1)) (Nat.pow 2 (bits - 1) - 1) expected

def byte : Decoder UInt8 := fun r => do return (← natural 8 "u8" r).toUInt8

def natural32 : Decoder Nat := natural 32 "u32"

def natural64 : Decoder Nat := natural 64 "u64"

/-- A number of things in memory, which 64 bits hold. -/
def size : Decoder Nat := natural 64 "usize"

def integer32 : Decoder Int := signed 32 "i32"

def integer64 : Decoder Int := signed 64 "i64"

def bool : Decoder Bool
  | .bool b => .ok b
  | r => wrongType "a boolean" r

/-- Raises what is wrong at the end of an array or object. -/
def checkEnding : Option Fault → Except ReadError Unit
  | none => .ok ()
  | some fault => .error (.fault fault)

/-- Decodes items one after the other; the decoded ones are in reverse. -/
def itemsFrom {α : Type} (item : Decoder α) (done : List α) :
    List Reading → Except ReadError (List α)
  | [] => .ok done.reverse
  | r :: rest => do itemsFrom item ((← item r) :: done) rest

def list {α : Type} (item : Decoder α) : Decoder (List α)
  | .array items ending => do
    let values ← itemsFrom item [] items
    checkEnding ending
    return values
  | r => wrongType "a sequence" r

def ofName {α : Type} (variants : List (String × α)) (name : String) : Except ReadError α :=
  match variants.find? (·.1 == name) with
  | some (_, value) => .ok value
  | none => .error (.data (.unknownVariant name (variants.map (·.1))))

/-- What stands for a variant without content. -/
def unit : Decoder Unit
  | .null => .ok ()
  | r => wrongType "unit" r

/-- The name that a key is. -/
def keyName : Reading → Except ReadError String
  | .string (.ok name) => .ok name
  | .string (.error fault) => .error (.fault fault)
  | .absent => .error (.fault .cutOff)
  | _ => .error (.fault .malformed)

/-- One of several variants without content: its name, or an object with its name as the only key.
What begins otherwise is malformed, and need not even end. -/
def variant {α : Type} (variants : List (String × α)) : Decoder α
  | .string (.ok name) => ofName variants name
  | .string (.error fault) => .error (.fault fault)
  | .object ((key, content) :: rest) ending => do
    let value ← ofName variants (← keyName key)
    unit content
    if rest.isEmpty then checkEnding ending else throw (.fault .malformed)
    return value
  | .object [] (some fault) => .error (.fault fault)
  | .absent => .error (.fault .cutOff)
  | _ => .error (.fault .malformed)

/-! ## Records -/

/-- A field of a record: its name and how its reading changes the record. -/
structure Field (ρ : Type) where
  name : String
  set : Reading → ρ → Except ReadError ρ

/-- Sets fields from the members of an object; gives also the names that were set. -/
def setMembers {ρ : Type} (fields : List (Field ρ)) :
    List String → ρ → List (Reading × Reading) → Except ReadError (List String × ρ)
  | seen, record, [] => .ok (seen, record)
  | seen, record, (key, value) :: rest => do
    let name ← keyName key
    match fields.find? (·.name == name) with
    | none => setMembers fields seen record rest
    | some field =>
      if seen.contains name then .error (.data (.duplicateField name))
      else setMembers fields (name :: seen) (← field.set value record) rest

/-- Sets fields from the items of an array, in order; gives also what neither has a counterpart. -/
def setItems {ρ : Type} :
    List (Field ρ) → List Reading → ρ → Except ReadError (ρ × List (Field ρ) × List Reading)
  | field :: fields, item :: items, record => do
    setItems fields items (← field.set item record)
  | fields, items, record => .ok (record, fields, items)

/-- The first field that is not among the names. -/
def missing? {ρ : Type} (fields : List (Field ρ)) (seen : List String) : Option String :=
  (fields.find? fun field => !seen.contains field.name).map (·.name)

/-- A record with given fields, set one by one from a blank one. -/
def record {ρ : Type} (name : String) (fields : List (Field ρ)) (blank : ρ) : Decoder ρ
  | .object members ending => do
    let (seen, value) ← setMembers fields [] blank members
    checkEnding ending
    match missing? fields seen with
    | some field => throw (.data (.missingField field))
    | none => return value
  | .array items ending => do
    let (value, unset, extra) ← setItems fields items blank
    if extra.isEmpty then checkEnding ending else throw (.fault .malformed)
    if unset.isEmpty then return value
    else throw (.data (.invalidLength (fields.length - unset.length)
      ("struct " ++ name ++ " with " ++ toString fields.length ++ " elements")))
  | r => wrongType ("struct " ++ name) r

/-- Decodes a whole text. -/
def run {α : Type} (decoder : Decoder α) (text : List UInt8) : Except ReadError α := do
  let (reading, trailing) := Reading.ofBytes text
  let value ← decoder reading
  checkEnding trailing
  return value

end Decoder

end VoxelSwarm.Json
