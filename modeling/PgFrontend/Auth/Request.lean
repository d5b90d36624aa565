import PgFrontend.Text.Quoted
import PgFrontend.Octets
/-!
# Authentication requests

What the server asks of a client that wants to be let in, and how such a request is shown.
-/

namespace PgFrontend

inductive AuthRequest
  | ok
  | cleartextPassword
  | md5Password (salt : Octets)
  | sasl (mechanisms : List String)
  | saslContinue (data : Octets)
  | saslFinal (data : Octets)
  | unsupported (code : Int32)
  deriving Repr, DecidableEq

namespace AuthRequest

def isOk : AuthRequest → Bool
  | ok => true
  | _ => false

def shown : AuthRequest → String
  | ok => "Ok"
  | cleartextPassword => "CleartextPassword"
  | md5Password salt =>
      Quoted.fields "Md5Password" [("salt", Quoted.list (salt.map fun b => toString b.toNat))]
  | sasl mechanisms =>
      Quoted.fields "Sasl" [("mechanisms", Quoted.list (mechanisms.map Quoted.text))]
  | saslContinue data => Quoted.fields "SaslContinue" [("data", Quoted.octets data)]
  | saslFinal data => Quoted.fields "SaslFinal" [("data", Quoted.octets data)]
  | unsupported code => Quoted.fields "Unsupported" [("code", toString code.toInt)]

end AuthRequest

end PgFrontend
