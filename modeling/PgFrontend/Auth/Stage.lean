/-!
# Stages of an authentication

How far a SCRAM authentication has come, as far as messages tell.
-/

namespace PgFrontend.Scram

inductive Stage
  | initial
  | firstSent
  | finalSent
  | verified
  deriving Repr, DecidableEq

def Stage.label : Stage → String
  | initial => "initial"
  | firstSent => "client-first-sent"
  | finalSent => "client-final-sent"
  | verified => "verified"

end PgFrontend.Scram
