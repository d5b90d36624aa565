import PgFrontend.Auth.Credentials
import PgFrontend.Exchange.Opening
import PgFrontend.Session.Connection
/-!
# Creating connections

One attempt to create a connection dials the server, opens a session, asks for its isolation level,
chooses the schema, and hands the connection out. When something goes wrong after the link is open,
the link is closed once, and what goes wrong with that does not matter any more.

An attempt can listen to a stop signal. While it dials there is no link to close yet.
-/

namespace PgFrontend

inductive Answer
  | opened
  | refused (fault : Fault)
  | nothing
  /-- There is no answer, and the caller is told to stop. -/
  | stopped
  deriving Repr, DecidableEq

structure Dial where
  answer : Answer := .opened
  delay : Elapsed := ⟨0⟩
  deriving Repr, DecidableEq

namespace Factory

def isolationProbe : String := "SHOW TRANSACTION ISOLATION LEVEL"

/-- The statement that chooses a schema. A quote in its name is written twice. -/
def schemaStatement (schema : String) : String :=
  let quoted := schema.toList.flatMap fun c => if c = '\'' then ['\'', '\''] else [c]
  String.ofList ("SET SCHEMA '".toList ++ quoted ++ ['\''])

/-- A fault while dialling, as the caller sees it. -/
def dialFault (c : Config) : Fault → Fault
  | .transport host port reason => .transport host port reason
  | .tls reason => .tls reason
  | fault => .transport c.host c.port fault.message

def timeoutFault (c : Config) : Fault :=
  .transport c.host c.port s!"connect timed out after {c.connectTimeout.text}"

/-- Dials the server. An answer that comes when the time is just up still counts, but a stop signal
that comes then is too late. The signal is heard only if `listening`. -/
def dial (c : Config) (d : Dial) (listening : Bool) : Wire Unit := do
  Link.record (.dialled c.host c.port)
  if c.connectTimeout.ticks < d.delay.ticks then
    throw (.fault (timeoutFault c))
  match d.answer with
  | .opened => return
  | .refused fault => throw (.fault (dialFault c fault))
  | .nothing => throw (.fault (timeoutFault c))
  | .stopped =>
      let heard := listening && d.delay.ticks < c.connectTimeout.ticks
      throw (if heard then .waiting else .fault (timeoutFault c))

def select (nonce : String) (c : Credentials) (request : AuthRequest) :
    Except Fault Handler × Credentials :=
  (c.handlerFor nonce request, c)

def openSession (c : Config) (nonce : String) : Wire Outcome :=
  let x : Exchange Credentials Handler := { chooser := ⟨c.user, c.password⟩ }
  x.run (select nonce) (.ofConfig c)

/-- The level that the answer to the probe names: the text in the first column of the first row. The
standard level stands in for anything else. -/
def probedLevel (codecs : Registry) (result : QueryResult) : IsolationLevel :=
  match result.rows with
  | [] => .standard
  | row :: _ =>
      match row.get String codecs 0 with
      | .ok (some name) => (IsolationLevel.parse name).toOption.getD .standard
      | _ => .standard

/-- Runs a query that sets up the session. A fault in it is wrapped. -/
def setUp (c : Config) (sql : String) : Wire QueryResult := fun l =>
  match Query.run sql l with
  | .error (.fault fault) l => .error (.fault (.connect c.host c.port fault)) l
  | result => result

def prepare (c : Config) (nonce : String) : Wire Connection := do
  let outcome ← openSession c nonce
  let isolation := probedLevel .builtin (← setUp c isolationProbe)
  if let some schema := c.schema then
    discard (setUp c (schemaStatement schema))
  return {
    codecs := .builtin
    isolation
    forceBinary := c.forceBinary
    parameters := outcome.parameters
    backendKey := outcome.backendKey }

/-- Closes the link and ends with a fault, whatever comes of the closing. The stop signal does not
matter any more. -/
def closeWith {α : Type} (fault : Fault) : Wire α := fun l =>
  match Link.close { l with interruption := none } with
  | .ok _ l => .error (.fault fault) l
  | .error _ l => .error (.fault fault) l

/-- Sets a session up over an open link, and closes the link if that fails. When the stop signal
comes first, the attempt is cancelled if it is `listening`, and otherwise goes on waiting. -/
def establish (c : Config) (nonce : String) (listening : Bool) : Wire Connection := fun l =>
  match prepare c nonce l with
  | .ok connection l => .ok connection { l with interruption := none }
  | .error (.fault fault) l => closeWith fault l
  | .error .waiting l => if listening then closeWith .cancelled l else .error .waiting l

def create (c : Config) (nonce : String) (d : Dial) : Wire Connection := do
  dial c d false
  establish c nonce false

inductive Signal
  /-- It was raised before the attempt. -/
  | raised
  /-- It may still be raised. -/
  | pending
  /-- It is never raised, or can not be raised any more. -/
  | dropped
  deriving Repr, DecidableEq

/-- Something that is cancelled if the stop signal comes while it waits and the caller is
`listening`, and that otherwise goes on waiting. -/
def heed {α : Type} (listening : Bool) (x : Wire α) : Wire α := fun l =>
  match x l with
  | .error .waiting l => .error (if listening then .fault .cancelled else .waiting) l
  | result => result

def attempt (c : Config) (nonce : String) (d : Dial) (listening : Bool) : Wire Connection := do
  heed listening (dial c d listening)
  establish c nonce listening

/-- One attempt with a stop signal. A signal that can not be raised any more is listened to like
one that can, but it is never heard. -/
def createUntil (c : Config) (nonce : String) (d : Dial) : Signal → Wire Connection
  | .raised => throw (.fault .cancelled)
  | .pending => attempt c nonce d true
  | .dropped => attempt c nonce d false

end Factory

end PgFrontend
