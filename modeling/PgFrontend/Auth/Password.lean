import PgFrontend.Auth.Authenticator
import PgFrontend.Digest.Md5
/-!
# Passwords

The mechanisms that send the password itself, or an MD5 digest of it that is salted with octets
which the server chose.
-/

namespace PgFrontend

open Octets

structure Password where
  user : String
  password : String
  deriving Repr, DecidableEq

namespace Password

def supports : AuthRequest → Bool
  | .cleartextPassword => true
  | .md5Password _ => true
  | _ => false

def digits (message : Octets) : Octets :=
  Hex.encode (Md5.digest message)

/-- The digest that stands for the password: of the digits of the digest of password and user,
followed by the salt. -/
def salted (p : Password) (salt : Octets) : Octets :=
  ofString "md5" ++ digits (digits (ofString p.password ++ ofString p.user) ++ salt)

/-- Answers a request for a password, and no other; any number of times. -/
def respond (p : Password) : AuthRequest → Except Fault (Option ClientMessage × Password)
  | .cleartextPassword => .ok (some (.password (ofString p.password ++ [0])), p)
  | .md5Password salt => .ok (some (.password (p.salted salt ++ [0])), p)
  | request => .error (.protocol (.unexpectedForPassword request))

def shown (p : Password) : String :=
  Quoted.someFields "PasswordAuthenticationHandler" [("user", Quoted.text p.user)]

end Password

instance : Authenticator Password where
  mechanism _ := "password"
  isComplete _ := true
  respond := Password.respond

end PgFrontend
