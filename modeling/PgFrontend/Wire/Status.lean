import PgFrontend.Text.Quoted
import PgFrontend.Wire.Payload
/-!
# Reports of the server

The payloads that consist of one or two fields: the value of a run-time parameter, the key for
cancelling queries, and the tag of a finished command.
-/

namespace PgFrontend

open Octets

structure ParameterStatus where
  name : String
  value : String
  deriving Repr, DecidableEq

def ParameterStatus.parse (payload : Octets) : Except Fault ParameterStatus := do
  let (name, rest) ← Payload.text payload
  let (value, _) ← Payload.text rest
  return ⟨name, value⟩

structure BackendKey where
  processId : Int32
  secretKey : Int32
  deriving Repr, DecidableEq

def BackendKey.parse (payload : Octets) : Except Fault BackendKey :=
  match field? 8 payload with
  | none => .error (.protocol .shortKeyData)
  | some (key, _) => .ok ⟨Payload.int32 (key.take 4), Payload.int32 (key.drop 4)⟩

def BackendKey.shown (key : BackendKey) : String :=
  Quoted.fields "BackendKey"
    [("process_id", toString key.processId.toInt), ("secret_key", toString key.secretKey.toInt)]

def commandTag (payload : Octets) : Except Fault String := do
  let (tag, _) ← Payload.text payload
  return tag

end PgFrontend
