import PgFrontend.Fault
import PgFrontend.Wire.ClientMessage
/-!
# Authenticators

The client's side of one mechanism of authentication: something that answers the server's requests
one after another and knows whether its part is done.
-/

namespace PgFrontend

class Authenticator (H : Type) where
  mechanism : H → String
  /-- Whether the server may now say that the client is let in. A mechanism that also checks the
  server is not complete before it has done so. -/
  isComplete : H → Bool
  respond : H → AuthRequest → Except Fault (Option ClientMessage × H)

end PgFrontend
