import PgFrontend.Fault
/-!
# Reading payloads

The readers that the payloads of server messages are taken apart with. Each returns what follows the
part that it has read, and gives up with the violation that this part amounts to; what follows the
last part of a payload is ignored.
-/

namespace PgFrontend

open Octets

namespace Payload

def text (s : Octets) : Except Fault (String × Octets) :=
  match cstring? s with
  | none => .error (.protocol .unterminatedText)
  | some (octets, rest) =>
      match Utf8.decode octets with
      | .error flaw => .error (.protocol (.malformedText flaw))
      | .ok value => .ok (value, rest)

def field (part : MessagePart) (size : Nat) (s : Octets) : Except Fault (Octets × Octets) :=
  match field? size s with
  | none => .error (.protocol (.truncated part))
  | some found => .ok found

def slice (start width : Nat) (s : Octets) : Nat :=
  toNat ((s.drop start).take width)

def int16 (s : Octets) : Int16 :=
  (UInt16.ofNat (toNat s)).toInt16

def int32 (s : Octets) : Int32 :=
  (UInt32.ofNat (toNat s)).toInt32

end Payload

end PgFrontend
