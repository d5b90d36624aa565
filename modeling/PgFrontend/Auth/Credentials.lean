import PgFrontend.Auth.Handler
/-!
# Credentials

Who the client is, and which mechanism answers the server's first request: passwords before SCRAM.
-/

namespace PgFrontend

structure Credentials where
  user : String
  password : String
  deriving Repr, DecidableEq

namespace Credentials

def handlerFor (c : Credentials) (nonce : String) (request : AuthRequest) : Except Fault Handler :=
  if Password.supports request then .ok (.password ⟨c.user, c.password⟩)
  else if Scram.supports request then .ok (.scram ⟨c.user, c.password, nonce, .initial⟩)
  else .error (.unsupportedAuthentication (.request request))

/-- The credentials as text. The password is never shown. -/
def shown (c : Credentials) : String :=
  Quoted.fields "Credentials"
    [("user", Quoted.text c.user), ("password", Quoted.text "<redacted>")]

end Credentials

end PgFrontend
