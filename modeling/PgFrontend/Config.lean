import PgFrontend.Settings
import PgFrontend.Elapsed
import PgFrontend.Text.Quoted
/-!
# Settings of a connection

Everything that is needed to open a session.
-/

namespace PgFrontend

inductive Encryption.Mode
  | disable
  | prefer
  | require
  | verifyAuthority
  | verifyFull
  deriving Repr, DecidableEq

def Encryption.Mode.label : Encryption.Mode → String
  | disable => "Disable"
  | prefer => "Prefer"
  | require => "Require"
  | verifyAuthority => "VerifyCa"
  | verifyFull => "VerifyFull"

structure Encryption where
  mode : Encryption.Mode := .disable
  authorityPath : Option String := none
  serverName : Option String := none
  deriving Repr, DecidableEq

def Encryption.shown (e : Encryption) : String :=
  Quoted.fields "TlsConfig"
    [("mode", e.mode.label), ("ca_pem_path", Quoted.optional (e.authorityPath.map Quoted.text)),
      ("sni_hostname", Quoted.optional (e.serverName.map Quoted.text))]

structure Config where
  host : String := "127.0.0.1"
  port : UInt16 := 5432
  user : String := "postgres"
  password : String := "postgres"
  database : String := "postgres"
  applicationName : String := "pgwire-client"
  schema : Option String := none
  options : Settings := {}
  connectTimeout : Elapsed := .ofSeconds 10
  forceBinary : Bool := false
  encryption : Encryption := {}
  deriving Repr, DecidableEq

namespace Config

def withOption (c : Config) (key value : String) : Config :=
  { c with options := c.options.insert key value }

/-- The settings in one line, without the password. -/
def shown (c : Config) : String :=
  let option := fun (key, value) => Quoted.text key ++ ": " ++ Quoted.text value
  Quoted.fields "ConnectionConfig"
    [("host", Quoted.text c.host), ("port", toString c.port.toNat),
      ("user", Quoted.text c.user), ("password", Quoted.text "<redacted>"),
      ("database", Quoted.text c.database),
      ("application_name", Quoted.text c.applicationName),
      ("schema", Quoted.optional (c.schema.map Quoted.text)),
      ("options", "\x7b" ++ String.intercalate ", " (c.options.entries.map option) ++ "\x7d"),
      ("connect_timeout", c.connectTimeout.text), ("force_binary", toString c.forceBinary),
      ("tls", c.encryption.shown)]

end Config

end PgFrontend
