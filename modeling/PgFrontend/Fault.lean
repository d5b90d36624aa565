import PgFrontend.Fault.Cause
import PgFrontend.ServerError
/-!
# Failures

Every failure of the client is a `Fault`: the part of the client that gave up, and the cause. A
fault that happens while a session is set up wraps the one that caused it, and questions about the
server or about trying again look through the wrapping.
-/

namespace PgFrontend

inductive Fault
  | io (cause : TransferCause)
  /-- No link could be opened. -/
  | transport (host : String) (port : UInt16) (reason : String)
  | protocol (violation : Violation)
  | server (report : ServerError)
  | auth (cause : AuthCause)
  | unsupportedAuthentication (method : UnsupportedMethod)
  | decode (oid : Oid) (cause : DecodeCause)
  | encode (cause : EncodeCause)
  /-- A session was opened but could not be set up. -/
  | connect (host : String) (port : UInt16) (source : Fault)
  | tls (reason : String)
  | cancelled
  | internal (misuse : Misuse)
  deriving Repr, DecidableEq

namespace Fault

def message : Fault → String
  | io cause => s!"io error: {cause.message}"
  | transport host port reason => s!"cannot reach {host}:{port.toNat}: {reason}"
  | protocol violation => s!"protocol error: {violation.message}"
  | server report => s!"server error: {report.display}"
  | auth cause => s!"authentication error: {cause.message}"
  | unsupportedAuthentication method => s!"unsupported authentication method: {method.message}"
  | decode oid cause => s!"decode error ({oid.display}): {cause.message}"
  | encode cause => s!"encode error: {cause.message}"
  | connect host port _ => s!"cannot connect to {host}:{port.toNat}"
  | tls reason => s!"tls error: {reason}"
  | cancelled => "connection attempt cancelled"
  | internal misuse => s!"internal error: {misuse.message}"

def source? : Fault → Option Fault
  | connect _ _ source => some source
  | _ => none

/-- The error that the server reported, if that is what went wrong, also during set-up. -/
def serverError? : Fault → Option ServerError
  | server report => some report
  | connect _ _ source => source.serverError?
  | _ => none

def isIo : Fault → Bool
  | io _ => true
  | _ => false

def isServer (f : Fault) : Bool :=
  f.serverError?.isSome

def isAuth : Fault → Bool
  | auth _ => true
  | unsupportedAuthentication _ => true
  | _ => false

def isDecode : Fault → Bool
  | decode .. => true
  | _ => false

/-- Whether trying again may help without any change: the link failed, also during set-up. -/
def isTransient : Fault → Bool
  | io _ => true
  | transport .. => true
  | connect _ _ source => source.isTransient
  | _ => false

def ofErrorReport (payload : Octets) : Fault :=
  server (ServerError.parse payload)

end Fault

end PgFrontend
