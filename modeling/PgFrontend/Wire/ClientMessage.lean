import PgFrontend.Octets
/-!
# Client messages

What a client sends once the startup packet is out: a tag octet, the length of what follows the tag,
and a payload.
-/

namespace PgFrontend

open Octets

inductive ClientMessage
  /-- A password or its digest, with the zero octet at its end. -/
  | password (data : Octets)
  | saslInitialResponse (mechanism : String) (data : Octets)
  | saslResponse (data : Octets)
  | query (sql : String)
  | terminate
  deriving Repr, DecidableEq

namespace ClientMessage

def tag : ClientMessage → UInt8
  | password _ => 0x70
  | saslInitialResponse .. => 0x70
  | saslResponse _ => 0x70
  | query _ => 0x51
  | terminate => 0x58

def payload : ClientMessage → Octets
  | password data => data
  | saslInitialResponse mechanism data =>
      ofString mechanism ++ 0 :: bigEndian 4 data.length ++ data
  | saslResponse data => data
  | query sql => ofString sql ++ [0]
  | terminate => []

/-- Writes the whole frame after the octets that a buffer holds. Its length, which counts itself and
the payload, is known at the end only, and then overwrites the zeros that were left in its place. -/
def writeTo (buffer : Octets) (m : ClientMessage) : Octets :=
  let written := buffer ++ [m.tag] ++ bigEndian 4 0 ++ m.payload
  overwrite (buffer.length + 1) (bigEndian 4 (written.length - buffer.length - 1)) written

def encode (m : ClientMessage) : Octets :=
  m.writeTo []

theorem writeTo_eq (buffer : Octets) (m : ClientMessage) :
    m.writeTo buffer = buffer ++ (m.tag :: bigEndian 4 (m.payload.length + 4) ++ m.payload) := by
  have hsize : (buffer ++ [m.tag] ++ bigEndian 4 0 ++ m.payload).length - buffer.length - 1 =
      m.payload.length + 4 := by
    simp only [List.length_append, List.length_singleton, length_bigEndian]
    omega
  have hstart : buffer.length + 1 = (buffer ++ [m.tag]).length := by
    rw [List.length_append, List.length_singleton]
  rw [writeTo, hsize, hstart, List.append_assoc (buffer ++ [m.tag]),
    overwrite_append (by simp only [length_bigEndian])]
  simp

theorem encode_eq (m : ClientMessage) :
    m.encode = m.tag :: bigEndian 4 (m.payload.length + 4) ++ m.payload :=
  m.writeTo_eq []

end ClientMessage

def encryptionRequest : Octets :=
  bigEndian 4 8 ++ bigEndian 4 80877103

end PgFrontend
