import PgFrontend.Wire.Payload
/-!
# Frames

A message of the server: a tag octet, a length that counts itself and the payload, and the payload.
-/

namespace PgFrontend

open Octets

structure Frame where
  tag : UInt8
  payload : Octets
  deriving Repr, DecidableEq

namespace Frame

def headerSize : Nat := 5

def maxSize : Nat := 1073741824

def payloadSize (header : Octets) : Except Fault Nat :=
  let size := Payload.int32 (header.drop 1)
  if size.toInt < 4 ∨ maxSize < size.toInt then .error (.protocol (.frameLength size))
  else .ok (size.toInt.toNat - 4)

def encode (f : Frame) : Octets :=
  f.tag :: bigEndian 4 (f.payload.length + 4) ++ f.payload

end Frame

end PgFrontend
