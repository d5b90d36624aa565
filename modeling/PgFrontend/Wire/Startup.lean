import PgFrontend.Config
import PgFrontend.Octets
/-!
# The startup packet

The first packet of a session has no tag: its length, the version of the protocol, and the run-time
parameters of the session as pairs of texts, closed by an empty key. Session options travel
together in one parameter, as arguments `-c key=value` in ascending order of key, with a backslash
before each space and backslash of a value.
-/

namespace PgFrontend

open Octets

def protocolVersion : Int32 := 196608

def encodePairs (pairs : List (String × String)) : Octets :=
  pairs.flatMap (fun (key, value) => ofString key ++ 0 :: ofString value ++ [0]) ++ [0]

/-- A packet that opens a session. Its length counts itself. -/
def encodeStartup (version : Int32) (pairs : List (String × String)) : Octets :=
  let body := bigEndian 4 version.toUInt32.toNat ++ encodePairs pairs
  bigEndian 4 (body.length + 4) ++ body

structure StartupMessage where
  user : String
  database : String
  applicationName : String
  options : List (String × String)
  deriving Repr, DecidableEq

namespace StartupMessage

/-- The order of options: by key, and by value under one key. -/
def optionLe (x y : String × String) : Bool :=
  x.1 < y.1 || (x.1 == y.1 && x.2 ≤ y.2)

/-- What a configuration tells the server. The options are in ascending order. -/
def ofConfig (c : Config) : StartupMessage where
  user := c.user
  database := c.database
  applicationName := c.applicationName
  options := c.options.entries.mergeSort optionLe

/-- A value with a backslash before each space and each backslash. -/
def escapeValue : List Char → List Char
  | [] => []
  | c :: cs => if c = ' ' ∨ c = '\\' then '\\' :: c :: escapeValue cs else c :: escapeValue cs

def renderOption (option : String × String) : String :=
  "-c " ++ option.1 ++ "=" ++ String.ofList (escapeValue option.2.toList)

def renderedOptions (m : StartupMessage) : Option String :=
  if m.options.isEmpty then none
  else some (String.intercalate " " (m.options.map renderOption))

def parameters (m : StartupMessage) : List (String × String) :=
  [("user", m.user), ("database", m.database), ("application_name", m.applicationName),
    ("client_encoding", "UTF8")] ++ m.renderedOptions.toList.map ("options", ·)

def encode (m : StartupMessage) : Octets :=
  encodeStartup protocolVersion m.parameters

def shown (m : StartupMessage) : String :=
  let option := fun (key, value) => "(" ++ Quoted.text key ++ ", " ++ Quoted.text value ++ ")"
  Quoted.fields "StartupMessage"
    [("user", Quoted.text m.user), ("database", Quoted.text m.database),
      ("application_name", Quoted.text m.applicationName),
      ("options", Quoted.list (m.options.map option))]

end StartupMessage

end PgFrontend
