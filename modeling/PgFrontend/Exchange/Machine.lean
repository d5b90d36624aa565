import PgFrontend.Auth.Authenticator
import PgFrontend.Auth.Parser
import PgFrontend.Settings
import PgFrontend.Wire.Frame
import PgFrontend.Wire.Status
/-!
# The exchange that opens a session

From the startup packet to the server's readiness, message by message and without any transfer. The
mechanism of authentication is chosen at the first request that asks for one and answers all later
ones. Whatever goes wrong, the exchange has failed for good.

The exchange does not know its mechanisms: it works with any `Authenticator`, and with any way of
choosing one, which may keep a state of its own.
-/

namespace PgFrontend

structure Outcome where
  parameters : Settings := {}
  backendKey : Option BackendKey := none
  mechanism : Option String := none
  /-- The messages that the exchange has no use for, in the order of their arrival. -/
  passthrough : List Frame := []
  deriving Repr, DecidableEq

inductive Step
  | send (reply : ClientMessage)
  | wait
  | done
  deriving Repr, DecidableEq

/-- An exchange, with the state `S` of what chooses a mechanism, and the mechanism's side `H`. -/
structure Exchange (S H : Type) where
  chooser : S
  handler : Option H := none
  stage : Stage := .init
  history : List Stage := [.init]
  outcome : Outcome := {}

namespace Exchange

variable {S H : Type}

def enter (x : Exchange S H) (stage : Stage) : Exchange S H :=
  { x with stage, history := x.history ++ [stage] }

def startupSent (x : Exchange S H) : Except Fault Unit × Exchange S H :=
  if x.stage = .init then (.ok (), x.enter .startupSent)
  else (.error (.internal (.startupTwice x.stage)), x)

def noting (x : Exchange S H) (outcome : Outcome) : Except Fault Step × Exchange S H :=
  (.ok .wait, { x with outcome })

variable [Authenticator H]

/-- The side that answers a request: the one chosen before, or else one that is chosen now. -/
def choose (select : S → AuthRequest → Except Fault H × S) (x : Exchange S H)
    (request : AuthRequest) : Except Fault H × Exchange S H :=
  match x.handler with
  | some side => (.ok side, x)
  | none =>
      match select x.chooser request with
      | (.error fault, chooser) => (.error fault, { x with chooser })
      | (.ok side, chooser) =>
          let outcome := { x.outcome with mechanism := some (Authenticator.mechanism side) }
          (.ok side, { x with chooser, handler := some side, outcome })

def answer (select : S → AuthRequest → Except Fault H × S) (x : Exchange S H)
    (request : AuthRequest) : Except Fault Step × Exchange S H :=
  match x.choose select request with
  | (.error fault, x) => (.error fault, x)
  | (.ok side, x) =>
      match Authenticator.respond side request with
      | .error fault => (.error fault, x)
      | .ok (some reply, side) =>
          (.ok (.send reply), { x with handler := some side }.enter .responded)
      | .ok (none, side) => (.ok .wait, { x with handler := some side })

/-- Takes the server's word that the client is let in, unless the mechanism is not done. -/
def accept (x : Exchange S H) : Except Fault Step × Exchange S H :=
  match x.handler.filter (!Authenticator.isComplete ·) with
  | some side => (.error (.auth (.okTooEarly (Authenticator.mechanism side))), x)
  | none => (.ok .wait, x.enter .authenticated)

/-- Takes a request of the server. Once the client is let in there must be none. -/
def onRequest (select : S → AuthRequest → Except Fault H × S) (x : Exchange S H)
    (request : AuthRequest) : Except Fault Step × Exchange S H :=
  if x.stage = .authenticated then (.error (.protocol .requestAfterOk), x)
  else if request.isOk then x.accept
  else (x.enter .challenged).answer select request

def take (select : S → AuthRequest → Except Fault H × S) (x : Exchange S H) (frame : Frame) :
    Except Fault Step × Exchange S H :=
  match Char.ofNat frame.tag.toNat with
  | 'E' => (.error (.ofErrorReport frame.payload), x)
  | 'R' =>
      match AuthRequest.parse frame.payload with
      | .error fault => (.error fault, x)
      | .ok request => x.onRequest select request
  | 'S' =>
      match ParameterStatus.parse frame.payload with
      | .error fault => (.error fault, x)
      | .ok status =>
          let parameters := x.outcome.parameters.insert status.name status.value
          x.noting { x.outcome with parameters }
  | 'K' =>
      match BackendKey.parse frame.payload with
      | .error fault => (.error fault, x)
      | .ok key => x.noting { x.outcome with backendKey := some key }
  | 'Z' =>
      if x.stage = .authenticated then (.ok .done, x.enter .ready)
      else (.error (.protocol (.readyTooEarly x.stage)), x)
  | _ => x.noting { x.outcome with passthrough := x.outcome.passthrough ++ [frame] }

def isListening : Stage → Bool
  | .init => false
  | .ready => false
  | .failed => false
  | _ => true

def fail (x : Exchange S H) : Exchange S H :=
  if x.stage = .failed then x else x.enter .failed

def receive (select : S → AuthRequest → Except Fault H × S) (x : Exchange S H)
    (frame : Frame) : Except Fault Step × Exchange S H :=
  let (result, next) :=
    if isListening x.stage then x.take select frame
    else (.error (.internal (.messageOutOfTurn frame.tag x.stage)), x)
  match result with
  | .ok step => (.ok step, next)
  | .error fault => (.error fault, next.fail)

end Exchange

end PgFrontend
