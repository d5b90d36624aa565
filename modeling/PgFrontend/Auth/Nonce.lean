import PgFrontend.Text.Base64
/-!
# Nonces

What makes an exchange different from all others: random octets, written so that they can stand in
an attribute.
-/

namespace PgFrontend

/-- A nonce from a source of random octets, which is repeated if it is too short: 18 octets in
base64, which hold no comma. -/
def nonceOf (random : Octets) : String :=
  let source := if random.isEmpty then [0] else random
  Base64.text ((List.replicate 18 source).flatten.take 18)

end PgFrontend
