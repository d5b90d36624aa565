/-!
# Classes of error codes

Error codes of SQL have five characters, and the first two of them name a class of errors. The
client tells a few classes apart; a code that is too short belongs to none of them.
-/

namespace PgFrontend.Sqlstate

/-- The classes of error that the client tells apart, by the first two characters of the code. -/
inductive Class
  | dataException
  | integrityConstraint
  | invalidAuthorization
  | invalidCatalog
  | transactionRollback
  | syntaxOrAccess
  | other
  deriving Repr, DecidableEq

def classOf (code : String) : Class :=
  match code.toList with
  | '2' :: '2' :: _ => .dataException
  | '2' :: '3' :: _ => .integrityConstraint
  | '2' :: '8' :: _ => .invalidAuthorization
  | '3' :: 'D' :: _ => .invalidCatalog
  | '4' :: '0' :: _ => .transactionRollback
  | '4' :: '2' :: _ => .syntaxOrAccess
  | _ => .other

def Class.label : Class → String
  | dataException => "DataException"
  | integrityConstraint => "IntegrityConstraint"
  | invalidAuthorization => "InvalidAuthorization"
  | invalidCatalog => "InvalidCatalog"
  | transactionRollback => "TransactionRollback"
  | syntaxOrAccess => "SyntaxOrAccess"
  | other => "Other"

end PgFrontend.Sqlstate
