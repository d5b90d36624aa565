/-!
# Stages of opening a session

How far the exchange that opens a session has come.
-/

namespace PgFrontend

inductive Stage
  | init
  | startupSent
  | challenged
  | responded
  | authenticated
  | ready
  | failed
  deriving Repr, DecidableEq

def Stage.label : Stage → String
  | init => "Init"
  | startupSent => "StartupSent"
  | challenged => "AuthChallengeReceived"
  | responded => "AuthResponseSent"
  | authenticated => "Authenticated"
  | ready => "Ready"
  | failed => "Failed"

end PgFrontend
