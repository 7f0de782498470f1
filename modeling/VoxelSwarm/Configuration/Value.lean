import VoxelSwarm.Json.Decode
import VoxelSwarm.Json.Document
import VoxelSwarm.Step.Rules

/-!
# Rules as a JSON value

The rules are an object with a word for the grounding policy and a truth value for the target, or an
array of the two; what is not given keeps its default. A key of any other name is refused.
-/

namespace VoxelSwarm

open Json (Decoder DataError Reading ReadError)

namespace Rules

def groundingKey : String := "grounding"

def targetKey : String := "require_target_on_halt"

def policies : List (String × GroundingPolicy) := GroundingPolicy.all.map fun g => (g.keyword, g)

/-- Decodes a policy: its word, or an object with its word as the only key and nothing under it. -/
def policyDecoder : Decoder GroundingPolicy
  | .string (.ok name) => Json.Decoder.ofName policies name
  | .object [(key, content)] _ => do
    let policy ← Json.Decoder.ofName policies (← Json.Decoder.keyName key)
    Json.Decoder.unit content
    return policy
  | .object _ _ => .error (.data (.invalidValue "map" "map with a single key"))
  | r => Json.Decoder.wrongType "string or map" r

def setRule (name : String) (value : Reading) (rules : Rules) : Except ReadError Rules :=
  if name = groundingKey then do
    return { rules with grounding := ← policyDecoder value }
  else if name = targetKey then do
    return { rules with targetBeforeHalt := ← Json.Decoder.bool value }
  else .error (.data (.unknownField name [groundingKey, targetKey]))

def decoder : Decoder Rules
  | .object members _ =>
    members.foldlM
      (fun rules (key, value) => do setRule (← Json.Decoder.keyName key) value rules) {}
  | .array items _ => do
    let rules ← ([groundingKey, targetKey].zip items).foldlM
      (fun rules (name, value) => setRule name value rules) {}
    if 2 < items.length then
      throw (.data (.invalidLength items.length "fewer elements in array"))
    return rules
  | r => Json.Decoder.wrongType "struct EmulatorConfig" r

def ofJson (v : Json) : Except ReadError Rules := decoder v.reading

end Rules

end VoxelSwarm
