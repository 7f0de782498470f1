import VoxelSwarm.Text.ShortestDecimal
import VoxelSwarm.Text.Utf8

/-!
# JSON values

A `Json` is a value as it is written: `chars` gives its compact text, without blanks, and `bytes`
the UTF-8 form of that.
-/

namespace VoxelSwarm

/-- A JSON value. Numbers are integers or floating-point numbers. -/
inductive Json where
  | null
  | bool (b : Bool)
  | int (n : Int)
  | float (x : Float)
  | string (s : String)
  | array (items : List Json)
  | object (members : List (String × Json))
  deriving Inhabited

namespace Json

def hexDigit (n : Nat) : Char := Nat.digitChar (n % 16)

/-- A character inside quotes: quotes, backslashes and control characters are escaped. -/
def escaped (c : Char) : List Char :=
  if c = '"' then ['\\', '"']
  else if c = '\\' then ['\\', '\\']
  else if c = '\n' then ['\\', 'n']
  else if c = '\r' then ['\\', 'r']
  else if c = '\t' then ['\\', 't']
  else if c.toNat = 8 then ['\\', 'b']
  else if c.toNat = 12 then ['\\', 'f']
  else if c.toNat < 32 then ['\\', 'u', '0', '0', hexDigit (c.toNat / 16), hexDigit c.toNat]
  else [c]

/-- A text in quotes. -/
def quotedChars (s : String) : List Char := '"' :: s.toList.flatMap escaped ++ ['"']

/-- The pieces of a list with commas between them. -/
def commaSeparated : List (List Char) → List Char
  | [] => []
  | piece :: rest => piece ++ rest.flatMap (',' :: ·)

mutual

/-- The compact text of a value. -/
def chars : Json → List Char
  | .null => "null".toList
  | .bool true => "true".toList
  | .bool false => "false".toList
  | .int n => (toString n).toList
  | .float x => (ShortestDecimal.text x).toList
  | .string s => quotedChars s
  | .array items => '[' :: commaSeparated (itemChars items) ++ [']']
  | .object members => '{' :: commaSeparated (memberChars members) ++ ['}']

def itemChars : List Json → List (List Char)
  | [] => []
  | item :: rest => item.chars :: itemChars rest

def memberChars : List (String × Json) → List (List Char)
  | [] => []
  | (key, value) :: rest => (quotedChars key ++ ':' :: value.chars) :: memberChars rest

end

def text (v : Json) : String := String.ofList v.chars

def bytes (v : Json) : List UInt8 := Utf8.encode v.text

def nat (n : Nat) : Json := .int n

end Json

end VoxelSwarm
