import PgFrontend.Wire.Payload
/-!
# Reading authentication requests

A request is a code and, for some codes, a salt, a list of names, or data of the mechanism that was
chosen. A list of names ends at an empty one; a name without an end is not one.
-/

namespace PgFrontend.AuthRequest

open Octets

def code (payload : Octets) : Except Fault (Int32 × Octets) :=
  match field? 4 payload with
  | none => .error (.protocol .shortAuthRequest)
  | some (octets, rest) => .ok (Payload.int32 octets, rest)

/-- The names in a run of texts that each end at a zero octet, up to an empty one or one without an
end. -/
def names (s : Octets) : List String :=
  match _found : cstring? s with
  | none => []
  | some (name, rest) => if name.isEmpty then [] else Utf8.lossy name :: names rest
termination_by s.length
decreasing_by exact cstring?_length_lt _found

/-- The request that a payload holds. Only a missing code or salt is a violation. -/
def parse (payload : Octets) : Except Fault AuthRequest := do
  let (code, rest) ← code payload
  match code.toInt with
  | 0 => return ok
  | 3 => return cleartextPassword
  | 5 =>
      match field? 4 rest with
      | none => throw (.protocol .missingSalt)
      | some (salt, _) => return md5Password salt
  | 10 => return sasl (names rest)
  | 11 => return saslContinue rest
  | 12 => return saslFinal rest
  | _ => return unsupported code

end PgFrontend.AuthRequest
