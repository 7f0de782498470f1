import VoxelSwarm.Json.Decode
import VoxelSwarm.Json.Value
import VoxelSwarm.Matrix.Model
import VoxelSwarm.Swarm.State

/-!
# Matrices and states as JSON

Every structure is an object of its fields in order. Reading a matrix checks that its fields agree;
reading a state checks nothing else, so that a state which makes no sense can be looked at.
-/

namespace VoxelSwarm

open Json (Decoder ReadError)
open Json.Decoder

/-! ## Matrices -/

def Matrix.toJson (m : Matrix) : Json :=
  .object [
    ("resolution", .nat m.resolution),
    ("num_full", .nat m.fullCount),
    ("data", .array (m.data.toList.map fun byte => .nat byte.toNat))]

namespace Matrix

/-- The fields of a matrix before they are known to agree. -/
structure Packed where
  resolution : Nat
  fullCount : Nat
  data : List UInt8

/-- Decodes the fields of a matrix. -/
def packedDecoder : Decoder Packed :=
  record "PackedMatrix" [
    ⟨"resolution", fun r p => do return { p with resolution := ← natural32 r }⟩,
    ⟨"num_full", fun r p => do return { p with fullCount := ← size r }⟩,
    ⟨"data", fun r p => do return { p with data := ← list byte r }⟩] ⟨0, 0, []⟩

/-- Decodes a matrix, whose fields have to agree. -/
def decoder : Decoder Matrix := fun r => do
  let packed ← packedDecoder r
  match ofParts packed.resolution packed.fullCount packed.data.toArray with
  | .ok m => return m
  | .error e => throw (.data (.inconsistent e.message))

end Matrix

/-! ## Bots -/

def Position.toJson (p : Position) : Json :=
  .object [("x", .int p.x), ("y", .int p.y), ("z", .int p.z)]

def Position.decoder : Decoder Position :=
  record "Pos" [
    ⟨"x", fun r p => do return { p with x := ← integer32 r }⟩,
    ⟨"y", fun r p => do return { p with y := ← integer32 r }⟩,
    ⟨"z", fun r p => do return { p with z := ← integer32 r }⟩] Position.origin

def BotId.toJson (b : BotId) : Json := .nat b.index

def BotId.decoder : Decoder BotId := fun r => do return ⟨← byte r⟩

def Bot.toJson (b : Bot) : Json :=
  .object [
    ("bid", b.id.toJson),
    ("position", b.position.toJson),
    ("seeds", .array (b.seeds.map BotId.toJson)),
    ("active", .bool b.active)]

def Bot.decoder : Decoder Bot :=
  record "Bot" [
    ⟨"bid", fun r b => do return { b with id := ← BotId.decoder r }⟩,
    ⟨"position", fun r b => do return { b with position := ← Position.decoder r }⟩,
    ⟨"seeds", fun r b => do return { b with seeds := ← list BotId.decoder r }⟩,
    ⟨"active", fun r b => do return { b with active := ← bool r }⟩] (Bot.idle ⟨0⟩)

/-! ## States -/

def Harmonics.toJson (h : Harmonics) : Json := .string h.name

def Harmonics.decoder : Decoder Harmonics :=
  variant ([Harmonics.low, .high].map fun h => (h.name, h))

def State.toJson (s : State) : Json :=
  .object [
    ("matrix", s.matrix.toJson),
    ("target", s.target.toJson),
    ("bots", .array (s.bots.toList.map Bot.toJson)),
    ("energy", .int s.energy),
    ("harmonics", s.harmonics.toJson),
    ("halted", .bool s.halted)]

namespace State

/-- A state without anything in it. -/
def blank : State := ⟨Matrix.empty 0, Matrix.empty 0, #[], 0, .low, false⟩

def decoder : Decoder State :=
  record "State" [
    ⟨"matrix", fun r s => do return { s with matrix := ← Matrix.decoder r }⟩,
    ⟨"target", fun r s => do return { s with target := ← Matrix.decoder r }⟩,
    ⟨"bots", fun r s => do return { s with bots := (← list Bot.decoder r).toArray }⟩,
    ⟨"energy", fun r s => do return { s with energy := ← integer64 r }⟩,
    ⟨"harmonics", fun r s => do return { s with harmonics := ← Harmonics.decoder r }⟩,
    ⟨"halted", fun r s => do return { s with halted := ← bool r }⟩] blank

end State

end VoxelSwarm
