import PgFrontend.Proofs.Exchange.Receipt
/-!
# What a request leads to

How an exchange goes on when a request finds a side that answers it: the converse of `Receipt`,
for the requests that are to be shown to succeed.
-/

namespace PgFrontend.Exchange

variable {S H : Type} [Authenticator H] {select : S → AuthRequest → Except Fault H × S}
  {x : Exchange S H} {frame : Frame} {request : AuthRequest} {side next : H}

theorem receive_read {read : Except Fault AuthRequest} (hstage : x.stage.isAuthenticating = true)
    (hrequest : frame.request? = some read) :
    x.receive select frame =
      settle (match read with
        | .error fault => (.error fault, x)
        | .ok request => x.onRequest select request) := by
  have hturn : isListening x.stage = true := by
    rw [isListening_eq, hstage, Bool.true_or]
  have hletter : Char.ofNat frame.tag.toNat = 'R' := Frame.kind_of_request? hrequest
  obtain rfl : AuthRequest.parse frame.payload = read := by
    rw [Frame.request?, if_pos (Frame.kind_of_request? hrequest)] at hrequest
    exact Option.some.inj hrequest
  rw [receive_eq_settle, if_pos hturn]
  unfold take
  cases AuthRequest.parse frame.payload with
  | error fault => simp only [hletter]
  | ok request => simp only [hletter]

theorem receive_request (hstage : x.stage.isAuthenticating = true)
    (hrequest : frame.request? = some (.ok request)) :
    x.receive select frame =
      settle (if request.isOk then x.accept else (x.enter .challenged).answer select request) := by
  rw [receive_read hstage hrequest]
  dsimp only
  rw [onRequest, if_neg (ne_authenticated_of_isAuthenticating hstage)]

theorem receive_unreadable {fault : Fault} (hstage : x.stage.isAuthenticating = true)
    (hrequest : frame.request? = some (.error fault)) :
    x.receive select frame = (.error fault, x.enter .failed) := by
  rw [receive_read hstage hrequest, settle_error, fail_of_ne (ne_failed_of_isAuthenticating hstage)]

theorem receive_asked (hstage : x.stage.isAuthenticating = true)
    (hrequest : frame.request? = some (.ok request)) (hmore : request.isOk = false) :
    x.receive select frame = settle ((x.enter .challenged).answer select request) := by
  rw [receive_request hstage hrequest, if_neg (by rw [hmore]; decide)]

theorem choose_of_some (hhandler : x.handler = some side) :
    x.choose select request = (.ok side, x) := by
  rw [choose, hhandler]

theorem choose_of_none {chooser : S} (hhandler : x.handler = none)
    (hselect : select x.chooser request = (.ok side, chooser)) :
    x.choose select request = (.ok side,
      { x with
        chooser, handler := some side
        outcome := { x.outcome with mechanism := some (Authenticator.mechanism side) } }) := by
  rw [choose, hhandler]
  simp only [hselect]

theorem choose_of_refused {chooser : S} {fault : Fault} (hhandler : x.handler = none)
    (hselect : select x.chooser request = (.error fault, chooser)) :
    x.choose select request = (.error fault, { x with chooser }) := by
  rw [choose, hhandler]
  simp only [hselect]

theorem answer_refused {y : Exchange S H} {fault : Fault}
    (hchoose : x.choose select request = (.error fault, y)) :
    x.answer select request = (.error fault, y) := by
  rw [answer, hchoose]

theorem answer_replied {y : Exchange S H} {reply : ClientMessage}
    (hchoose : x.choose select request = (.ok side, y))
    (hrespond : Authenticator.respond side request = .ok (some reply, next)) :
    x.answer select request =
      (.ok (.send reply), { y with handler := some next }.enter .responded) := by
  rw [answer, hchoose]
  simp only [hrespond]

theorem answer_silent {y : Exchange S H} (hchoose : x.choose select request = (.ok side, y))
    (hrespond : Authenticator.respond side request = .ok (none, next)) :
    x.answer select request = (.ok .wait, { y with handler := some next }) := by
  rw [answer, hchoose]
  simp only [hrespond]

theorem receive_unasked (hstage : x.stage.isAuthenticating = true)
    (hrequest : frame.request? = some (.ok .ok)) (hhandler : x.handler = none) :
    x.receive select frame = (.ok .wait, x.enter .authenticated) := by
  rw [receive_request hstage hrequest, if_pos (show AuthRequest.ok.isOk = true from rfl), accept,
    hhandler]
  rfl

theorem receive_admitting (hstage : x.stage.isAuthenticating = true)
    (hrequest : frame.request? = some (.ok .ok)) (hhandler : x.handler = some side)
    (hcomplete : Authenticator.isComplete side = true) :
    x.receive select frame = (.ok .wait, x.enter .authenticated) := by
  have hfilter : x.handler.filter (!Authenticator.isComplete ·) = none := by
    rw [hhandler, Option.filter_some, hcomplete]
    rfl
  rw [receive_request hstage hrequest, if_pos (show AuthRequest.ok.isOk = true from rfl), accept,
    hfilter]
  rfl

end PgFrontend.Exchange
