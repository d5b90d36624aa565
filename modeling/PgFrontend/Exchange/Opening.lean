import PgFrontend.Exchange.Machine
import PgFrontend.Wire.Conversation
import PgFrontend.Wire.Startup
/-!
# Opening a session over a link

The exchange as a conversation: the startup packet goes out, and then every frame is handed to the
exchange, which says what to answer and when the session is open.
-/

namespace PgFrontend.Exchange

variable {S H : Type} [Authenticator H]

def rule (select : S → AuthRequest → Except Fault H × S) (x : Exchange S H) (frame : Frame) :
    Turn (Exchange S H) Outcome :=
  match x.receive select frame with
  | (.ok (.send reply), x) => .send reply x
  | (.ok .wait, x) => .wait x
  | (.ok .done, x) => .done x.outcome
  | (.error fault, _) => .fail fault

def run (select : S → AuthRequest → Except Fault H × S) (x : Exchange S H)
    (startup : StartupMessage) : Wire Outcome := do
  Link.transmit startup.encode
  match x.startupSent with
  | (.ok _, x) => converse (rule select) x
  | (.error fault, _) => throw (.fault fault)

end PgFrontend.Exchange
