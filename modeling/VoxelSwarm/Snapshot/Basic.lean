import VoxelSwarm.Snapshot.Serial
import VoxelSwarm.Text.Base64
import VoxelSwarm.Text.Blank
import VoxelSwarm.Text.Natural

/-!
# Snapshots

A `Snapshot` is a state together with how far the trace had been read and how many steps had been
taken. Its text is one line of four fields with colons between them: the format, its version, the
side of the grid, and the JSON form of the snapshot in base64. What follows a fifth colon is not
looked at.
-/

namespace VoxelSwarm

/-- A state and the place in the trace where it was taken. -/
structure Snapshot where
  /-- The offset of the next byte of the trace. -/
  traceOffset : Nat
  /-- The number of steps taken so far. -/
  steps : Nat
  state : State
  deriving DecidableEq

/-- Why a text is not a snapshot. -/
inductive SnapshotError where
  | empty
  | missingVersion
  | missingResolution
  | missingPayload
  | unknownFormat (found : String)
  | unsupportedVersion (found : String)
  | invalidResolution (found : String)
  | resolutionMismatch (declared actual : Nat)
  | invalidEncoding (cause : Base64.Fault)
  | invalidPayload (cause : Json.ReadError)
  deriving DecidableEq, Repr

def Json.ReadError.message : Json.ReadError → String
  | .data e => e.message
  | .fault .cutOff => "EOF while parsing"
  | .fault .malformed => "malformed JSON"

def SnapshotError.message : SnapshotError → String
  | .empty => "snapshot was empty"
  | .missingVersion => "snapshot is missing the version"
  | .missingResolution => "snapshot is missing the resolution"
  | .missingPayload => "snapshot is missing the payload"
  | .unknownFormat found => "snapshot prefix '" ++ found ++ "' is not supported"
  | .unsupportedVersion found => "snapshot version '" ++ found ++ "' is not supported"
  | .invalidResolution found => "could not parse resolution '" ++ found ++ "'"
  | .resolutionMismatch declared actual =>
    "snapshot declares resolution " ++ toString declared ++ " but holds a " ++ toString actual ++
      "-voxel matrix"
  | .invalidEncoding cause => "could not decode snapshot payload: " ++ cause.message
  | .invalidPayload cause => "could not process snapshot payload: " ++ cause.message

/-- The deeper cause of a snapshot error, where there is one. -/
def SnapshotError.cause? : SnapshotError → Option String
  | .invalidEncoding cause => some cause.message
  | .invalidPayload cause => some cause.message
  | _ => none

namespace Snapshot

/-- The first field of a snapshot's text. -/
def format : String := "nanobot"

/-- The second field of a snapshot's text. -/
def version : String := "v1"

def toJson (s : Snapshot) : Json :=
  .object [
    ("trace_offset", .nat s.traceOffset),
    ("steps", .nat s.steps),
    ("state", s.state.toJson)]

def decoder : Json.Decoder Snapshot :=
  Json.Decoder.record "SessionSnapshot" [
    ⟨"trace_offset", fun r s => do return { s with traceOffset := ← Json.Decoder.size r }⟩,
    ⟨"steps", fun r s => do return { s with steps := ← Json.Decoder.natural64 r }⟩,
    ⟨"state", fun r s => do return { s with state := ← State.decoder r }⟩] ⟨0, 0, State.blank⟩

/-- The characters of a text of ASCII bytes. -/
def asciiChars (bytes : List UInt8) : List Char := bytes.map fun byte => Char.ofNat byte.toNat

/-- The text of a snapshot. -/
def encode (s : Snapshot) : String :=
  format ++ ":" ++ version ++ ":" ++ toString s.state.resolution ++ ":" ++
    String.ofList (asciiChars (Base64.encode s.toJson.bytes))

/-- The field of a text up to the next colon, and what follows the colon if there is one. -/
def field (cs : List Char) : List Char × Option (List Char) :=
  (cs.takeWhile (· ≠ ':'), (cs.dropWhile (· ≠ ':')).tail?)

/-- The fields of a snapshot's text. -/
structure Fields where
  format : List Char
  version : List Char
  resolution : List Char
  payload : List Char
  deriving DecidableEq, Repr

/-- The first four fields of a text, which is not empty. -/
def Fields.ofChars (cs : List Char) : Except SnapshotError Fields :=
  if cs.isEmpty then .error .empty
  else match field cs with
    | (_, none) => .error .missingVersion
    | (first, some rest) =>
      match field rest with
      | (_, none) => .error .missingResolution
      | (second, some rest) =>
        match field rest with
        | (_, none) => .error .missingPayload
        | (third, some rest) => .ok ⟨first, second, third, (field rest).1⟩

def checkFormat (found : List Char) : Except SnapshotError Unit :=
  if String.ofList found = format then .ok () else .error (.unknownFormat (String.ofList found))

def checkVersion (found : List Char) : Except SnapshotError Unit :=
  if String.ofList found = version then .ok ()
  else .error (.unsupportedVersion (String.ofList found))

/-- The number in the third field, with blanks around it or not. -/
def declaredResolution (found : List Char) : Except SnapshotError Nat :=
  match Natural.parse? (Nat.pow 2 32 - 1) (Blank.trim found) with
  | some declared => .ok declared
  | none => .error (.invalidResolution (String.ofList found))

def decodePayload (payload : List Char) : Except SnapshotError Snapshot := do
  let bytes ← (Base64.decode (Utf8.encode (String.ofList payload))).mapError .invalidEncoding
  (decoder.run bytes).mapError .invalidPayload

/-- The matrix has the declared side. -/
def checkResolution (s : Snapshot) (declared : Nat) : Except SnapshotError Unit :=
  if s.state.resolution = declared then .ok ()
  else .error (.resolutionMismatch declared s.state.resolution)

/-- Reads a snapshot's text, with blanks around it or not. -/
def decode (text : String) : Except SnapshotError Snapshot := do
  let fields ← Fields.ofChars (Blank.trim text.toList)
  checkFormat fields.format
  checkVersion fields.version
  let declared ← declaredResolution fields.resolution
  let s ← decodePayload fields.payload
  s.checkResolution declared
  return s

end Snapshot

end VoxelSwarm
