import PgFrontend.Auth.Password
import PgFrontend.Auth.Scram
/-!
# Handlers

The mechanisms of this library as one authenticator.
-/

namespace PgFrontend

inductive Handler
  | password (side : Password)
  | scram (side : Scram)
  deriving Repr, DecidableEq

namespace Handler

def mechanism : Handler → String
  | password side => Authenticator.mechanism side
  | scram side => Authenticator.mechanism side

def isComplete : Handler → Bool
  | password side => Authenticator.isComplete side
  | scram side => Authenticator.isComplete side

def respond (h : Handler) (request : AuthRequest) :
    Except Fault (Option ClientMessage × Handler) :=
  match h with
  | password side => (side.respond request).map fun (reply, next) => (reply, password next)
  | scram side => (side.respond request).map fun (reply, next) => (reply, scram next)

def shown : Handler → String
  | password side => side.shown
  | scram side => side.shown

end Handler

instance : Authenticator Handler where
  mechanism := Handler.mechanism
  isComplete := Handler.isComplete
  respond := Handler.respond

end PgFrontend
