import VoxelSwarm.Json.Reading
import VoxelSwarm.Json.Value

/-!
# JSON documents

`Json.parse?` reads a whole text as a value. Its objects list their members in the order of the
keys, and of the members of one key only the last is there.

`Json.reading` goes back from a value to a reading, for the decoders to take apart.
-/

namespace VoxelSwarm.Json

/-! ## From a text to a value -/

/-- Puts a member at its place in the order of the keys, where it replaces another of its key. -/
def putMember (key : String) (value : Json) : List (String × Json) → List (String × Json)
  | [] => [(key, value)]
  | (k, v) :: rest =>
    if key < k then (key, value) :: (k, v) :: rest
    else if key = k then (key, value) :: rest
    else (k, v) :: putMember key value rest

def ofNumber : Number → Json
  | .unsigned n => .int n
  | .signed n => .int n
  | .float x => .float x

mutual

/-- The value that a reading is, unless a part of it is broken. -/
def ofReading? : Reading → Option Json
  | .null => some .null
  | .bool b => some (.bool b)
  | .number (.ok n) => some (ofNumber n)
  | .string (.ok s) => some (.string s)
  | .array items none => (ofItems? items).map .array
  | .object members none => (ofMembers? [] members).map .object
  | _ => none

def ofItems? : List Reading → Option (List Json)
  | [] => some []
  | item :: rest => do return (← ofReading? item) :: (← ofItems? rest)

/-- The members of an object, put one by one among those that came before. -/
def ofMembers? (before : List (String × Json)) :
    List (Reading × Reading) → Option (List (String × Json))
  | [] => some before
  | (.string (.ok key), value) :: rest => do
    ofMembers? (putMember key (← ofReading? value) before) rest
  | _ :: _ => none

end

/-- The value that a whole text is. -/
def parse? (text : List UInt8) : Option Json :=
  match Reading.ofBytes text with
  | (reading, none) => ofReading? reading
  | (_, some _) => none

def member? (key : String) : Json → Option Json
  | .object members => members.lookup key
  | _ => none

/-! ## From a value to a reading -/

/-- The number that an integer of a value is read as. -/
def numberOfInt (n : Int) : Number := if 0 ≤ n then .unsigned n.toNat else .signed n

mutual

/-- A value as the reading of its text. -/
def reading : Json → Reading
  | .null => .null
  | .bool b => .bool b
  | .int n => .number (.ok (numberOfInt n))
  | .float x => .number (.ok (.float x))
  | .string s => .string (.ok s)
  | .array items => .array (itemReadings items) none
  | .object members => .object (memberReadings members) none

def itemReadings : List Json → List Reading
  | [] => []
  | item :: rest => item.reading :: itemReadings rest

def memberReadings : List (String × Json) → List (Reading × Reading)
  | [] => []
  | (key, value) :: rest => (.string (.ok key), value.reading) :: memberReadings rest

end

end VoxelSwarm.Json
