import PgFrontend.Exchange.Machine
import PgFrontend.Isolation
import PgFrontend.Session.Names
import PgFrontend.Session.Query
/-!
# Connections

An open session that is set up: what the server told about it, the codecs for its columns, the names
of its statements, and the queries that it runs over its link.
-/

namespace PgFrontend

structure Connection where
  codecs : Registry
  statements : StatementNames := {}
  isolation : IsolationLevel
  forceBinary : Bool
  parameters : Settings
  backendKey : Option BackendKey

namespace Connection

def parameter? (c : Connection) (name : String) : Option String :=
  c.parameters.find? name

def processId? (c : Connection) : Option Int32 :=
  c.backendKey.map BackendKey.processId

def secretKey? (c : Connection) : Option Int32 :=
  c.backendKey.map BackendKey.secretKey

def query (sql : String) : Wire (List Row) := do
  return (← Query.run sql).rows

/-- The tag of the last command of a query, which is empty if there was none. -/
def execute (sql : String) : Wire String := do
  return (← Query.run sql).tags.getLastD ""

def close : Wire Unit :=
  Link.close

def shown (c : Connection) : String :=
  Quoted.someFields "PgConnection"
    [("isolation_level", c.isolation.label), ("force_binary", toString c.forceBinary),
      ("backend_key", Quoted.optional (c.backendKey.map BackendKey.shown)),
      ("statements", toString c.statements.size)]

end Connection

end PgFrontend
