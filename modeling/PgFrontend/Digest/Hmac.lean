import PgFrontend.Digest.Sha256
/-!
# Keyed digests and salted passwords

HMAC with SHA-256, the exclusive or of octets, and the function `Hi` of SCRAM, which stretches a
password by as many keyed digests as the server asks for.
-/

namespace PgFrontend

namespace Hmac

open Octets

/-- A key as one block: hashed if it is longer, and filled up with zeros. -/
def block (key : Octets) : Octets :=
  let short := if 64 < key.length then Sha256.digest key else key
  short ++ List.replicate (64 - short.length) 0

def sha256 (key message : Octets) : Octets :=
  let k := block key
  let inner := Sha256.digest (k.map (· ^^^ 0x36) ++ message)
  Sha256.digest (k.map (· ^^^ 0x5c) ++ inner)

@[simp] theorem length_sha256 (key message : Octets) : (sha256 key message).length = 32 := by
  simp [sha256]

end Hmac

namespace Octets

def xor (s t : Octets) : Octets :=
  List.zipWith (· ^^^ ·) s t

@[simp] theorem length_xor (s t : Octets) : (xor s t).length = min s.length t.length := by
  simp [xor]

end Octets

namespace Hmac

section

variable {m : Type → Type} [Monad m] (mac : Octets → Octets → m Octets)

/-- The exclusive or of `total` with the next `rounds` keyed digests, each taken of the one before;
`last` is the one before the first of them. -/
def stretch (key : Octets) : Nat → Octets → Octets → m Octets
  | 0, _, total => pure total
  | rounds + 1, last, total => do
      let next ← mac key last
      stretch key rounds next (total.xor next)

/-- The function `Hi`, with keyed digests that are taken by `mac`: the first is taken of the salt
followed by the number one, and there are `iterations` of them, one at least. -/
def saltedWith (password salt : Octets) (iterations : Nat) : m Octets := do
  let first ← mac password (salt ++ [0, 0, 0, 1])
  stretch mac password (iterations - 1) first first

end

def salted (password salt : Octets) (iterations : Nat) : Octets :=
  Id.run (saltedWith (fun key message => pure (sha256 key message)) password salt iterations)

end Hmac

end PgFrontend
