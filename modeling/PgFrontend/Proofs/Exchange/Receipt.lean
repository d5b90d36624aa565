import PgFrontend.Exchange.Machine
import PgFrontend.Proofs.Wire.Frame
/-!
# What comes of a message

`Receipt` says once everything that handing a message to an exchange can do: the result and the
exchange after it, case by case, with what is known in that case.  Invariants of the exchange are
proved from it and do not look into the exchange's definition again.
-/

namespace PgFrontend

def Stage.isAuthenticating : Stage → Bool
  | startupSent => true
  | challenged => true
  | responded => true
  | _ => false

/-- The authentication request in a message, if the message is one. -/
def Frame.request? (f : Frame) : Option (Except Fault AuthRequest) :=
  if f.kind = 'R' then some (AuthRequest.parse f.payload) else none

theorem Frame.request?_of_ne {f : Frame} {c : Char} (hkind : f.kind = c) (hne : c ≠ 'R') :
    f.request? = none := by
  rw [request?, if_neg (hkind ▸ hne)]

theorem Frame.kind_of_request? {f : Frame} {request : Except Fault AuthRequest}
    (h : f.request? = some request) : f.kind = 'R' := by
  unfold request? at h
  split at h
  next hkind => exact hkind
  · cases h

/-- What a message that is only taken note of adds to the outcome. -/
inductive Outcome.Notes (o : Outcome) (frame : Frame) : Outcome → Prop
  | parameter (status : ParameterStatus) (hkind : frame.kind = 'S')
      (hparse : ParameterStatus.parse frame.payload = .ok status) :
      Notes o frame { o with parameters := o.parameters.insert status.name status.value }
  | key (key : BackendKey) (hkind : frame.kind = 'K')
      (hparse : BackendKey.parse frame.payload = .ok key) :
      Notes o frame { o with backendKey := some key }
  | passed (hkind : frame.kind ∉ ['E', 'R', 'S', 'K', 'Z']) :
      Notes o frame { o with passthrough := o.passthrough ++ [frame] }

theorem Outcome.Notes.mechanism_eq {o o' : Outcome} {frame : Frame} (h : o.Notes frame o') :
    o'.mechanism = o.mechanism := by
  cases h <;> rfl

theorem Outcome.Notes.request?_eq_none {o o' : Outcome} {frame : Frame} (h : o.Notes frame o') :
    frame.request? = none := by
  cases h with
  | parameter _ hkind _ => exact Frame.request?_of_ne hkind (by decide)
  | key _ hkind _ => exact Frame.request?_of_ne hkind (by decide)
  | passed hkind => exact if_neg fun hreq => hkind (by simp [hreq])

namespace Exchange

variable {S H : Type}

@[simp] theorem enter_stage (x : Exchange S H) (s : Stage) : (x.enter s).stage = s := rfl

@[simp] theorem enter_history (x : Exchange S H) (s : Stage) :
    (x.enter s).history = x.history ++ [s] := rfl

@[simp] theorem enter_handler (x : Exchange S H) (s : Stage) :
    (x.enter s).handler = x.handler := rfl

@[simp] theorem enter_outcome (x : Exchange S H) (s : Stage) :
    (x.enter s).outcome = x.outcome := rfl

@[simp] theorem enter_chooser (x : Exchange S H) (s : Stage) :
    (x.enter s).chooser = x.chooser := rfl

theorem isListening_eq (s : Stage) :
    isListening s = (s.isAuthenticating || s = .authenticated) := by
  cases s <;> rfl

theorem ne_failed_of_isListening {s : Stage} (h : isListening s = true) : s ≠ .failed := by
  rintro rfl
  cases h

theorem ne_failed_of_isAuthenticating {s : Stage} (h : s.isAuthenticating = true) :
    s ≠ .failed := by
  rintro rfl
  cases h

theorem ne_authenticated_of_isAuthenticating {s : Stage} (h : s.isAuthenticating = true) :
    s ≠ .authenticated := by
  rintro rfl
  cases h

theorem fail_of_ne {x : Exchange S H} (h : x.stage ≠ .failed) : x.fail = x.enter .failed :=
  if_neg h

@[simp] theorem fail_chooser (x : Exchange S H) : x.fail.chooser = x.chooser := by
  unfold fail
  split <;> rfl

@[simp] theorem fail_handler (x : Exchange S H) : x.fail.handler = x.handler := by
  unfold fail
  split <;> rfl

@[simp] theorem fail_outcome (x : Exchange S H) : x.fail.outcome = x.outcome := by
  unfold fail
  split <;> rfl

def settle (r : Except Fault Step × Exchange S H) : Except Fault Step × Exchange S H :=
  match r.1 with
  | .ok step => (.ok step, r.2)
  | .error fault => (.error fault, r.2.fail)

@[simp] theorem settle_ok (step : Step) (x : Exchange S H) :
    settle (.ok step, x) = (.ok step, x) := rfl

@[simp] theorem settle_error (fault : Fault) (x : Exchange S H) :
    settle (.error fault, x) = (.error fault, x.fail) := rfl

variable [Authenticator H] {select : S → AuthRequest → Except Fault H × S}

/-- How the side that answers a request is found: it is the one chosen before, or there was none
and the chooser is asked. -/
inductive Chosen (select : S → AuthRequest → Except Fault H × S) (x : Exchange S H)
    (request : AuthRequest) : Except Fault H → Exchange S H → Prop
  | before (side : H) (hhandler : x.handler = some side) :
      Chosen select x request (.ok side) x
  | now (side : H) (chooser : S) (hhandler : x.handler = none)
      (hselect : select x.chooser request = (.ok side, chooser)) :
      Chosen select x request (.ok side)
        { x with
          chooser, handler := some side
          outcome := { x.outcome with mechanism := some (Authenticator.mechanism side) } }
  | never (fault : Fault) (chooser : S) (hhandler : x.handler = none)
      (hselect : select x.chooser request = (.error fault, chooser)) :
      Chosen select x request (.error fault) { x with chooser }

theorem choose_chosen (select : S → AuthRequest → Except Fault H × S) (x : Exchange S H)
    (request : AuthRequest) :
    Chosen select x request (x.choose select request).1 (x.choose select request).2 := by
  unfold choose
  split
  next side hhandler => exact .before side hhandler
  next hhandler =>
    split
    next fault chooser hselect => exact .never fault chooser hhandler hselect
    next side chooser hselect => exact .now side chooser hhandler hselect

theorem Chosen.stage_eq {x y : Exchange S H} {request : AuthRequest} {found : Except Fault H}
    (h : Chosen select x request found y) : y.stage = x.stage := by
  cases h <;> rfl

theorem Chosen.history_eq {x y : Exchange S H} {request : AuthRequest} {found : Except Fault H}
    (h : Chosen select x request found y) : y.history = x.history := by
  cases h <;> rfl

theorem Chosen.handler_eq {x y : Exchange S H} {request : AuthRequest} {side : H}
    (h : Chosen select x request (.ok side) y) : y.handler = some side := by
  cases h with
  | before _ hhandler => exact hhandler
  | now => rfl

/-- Everything that can come of a message. -/
inductive Receipt (select : S → AuthRequest → Except Fault H × S) (x : Exchange S H)
    (frame : Frame) : Except Fault Step → Exchange S H → Prop
  /-- No message may come now. -/
  | outOfTurn (fault : Fault) (hturn : isListening x.stage = false) :
      Receipt select x frame (.error fault) x.fail
  /-- The message reports an error, is malformed, or comes too early or too late. -/
  | refused (fault : Fault) (hturn : isListening x.stage = true) :
      Receipt select x frame (.error fault) (x.enter .failed)
  | noted (outcome : Outcome) (hturn : isListening x.stage = true)
      (hnotes : x.outcome.Notes frame outcome) :
      Receipt select x frame (.ok .wait) { x with outcome }
  | opened (hstage : x.stage = .authenticated) (hkind : frame.kind = 'Z') :
      Receipt select x frame (.ok .done) (x.enter .ready)
  | admitted (hstage : x.stage.isAuthenticating = true) (hrequest : frame.request? = some (.ok .ok))
      (hcomplete : ∀ side ∈ x.handler, Authenticator.isComplete side = true) :
      Receipt select x frame (.ok .wait) (x.enter .authenticated)
  /-- There is no side that could answer. -/
  | unchosen (request : AuthRequest) (fault : Fault) (y : Exchange S H)
      (hstage : x.stage.isAuthenticating = true)
      (hrequest : frame.request? = some (.ok request)) (hok : request ≠ .ok)
      (hchosen : Chosen select (x.enter .challenged) request (.error fault) y) :
      Receipt select x frame (.error fault) (y.enter .failed)
  /-- The side that has to answer does not. -/
  | unanswered (request : AuthRequest) (fault : Fault) (side : H) (y : Exchange S H)
      (hstage : x.stage.isAuthenticating = true)
      (hrequest : frame.request? = some (.ok request)) (hok : request ≠ .ok)
      (hchosen : Chosen select (x.enter .challenged) request (.ok side) y)
      (hrespond : Authenticator.respond side request = .error fault) :
      Receipt select x frame (.error fault) (y.enter .failed)
  | replied (request : AuthRequest) (reply : ClientMessage) (side next : H) (y : Exchange S H)
      (hstage : x.stage.isAuthenticating = true)
      (hrequest : frame.request? = some (.ok request)) (hok : request ≠ .ok)
      (hchosen : Chosen select (x.enter .challenged) request (.ok side) y)
      (hrespond : Authenticator.respond side request = .ok (some reply, next)) :
      Receipt select x frame (.ok (.send reply)) ({ y with handler := some next }.enter .responded)
  | silent (request : AuthRequest) (side next : H) (y : Exchange S H)
      (hstage : x.stage.isAuthenticating = true)
      (hrequest : frame.request? = some (.ok request)) (hok : request ≠ .ok)
      (hchosen : Chosen select (x.enter .challenged) request (.ok side) y)
      (hrespond : Authenticator.respond side request = .ok (none, next)) :
      Receipt select x frame (.ok .wait) { y with handler := some next }

theorem receive_eq_settle (select : S → AuthRequest → Except Fault H × S) (x : Exchange S H)
    (frame : Frame) :
    x.receive select frame =
      settle (if isListening x.stage then x.take select frame
        else (.error (.internal (.messageOutOfTurn frame.tag x.stage)), x)) := rfl

abbrev Settled (select : S → AuthRequest → Except Fault H × S) (x : Exchange S H) (frame : Frame)
    (r : Except Fault Step × Exchange S H) : Prop :=
  Receipt select x frame (settle r).1 (settle r).2

theorem settled_of_error {x : Exchange S H} {frame : Frame} (fault : Fault)
    (hturn : isListening x.stage = true) : Settled select x frame (.error fault, x) := by
  rw [Settled, settle_error, fail_of_ne (ne_failed_of_isListening hturn)]
  exact .refused fault hturn

theorem answer_settled {x : Exchange S H} {frame : Frame} {request : AuthRequest}
    (hstage : x.stage.isAuthenticating = true) (hrequest : frame.request? = some (.ok request))
    (hok : request ≠ .ok) :
    Settled select x frame ((x.enter .challenged).answer select request) := by
  have hchosen := choose_chosen select (x.enter .challenged) request
  have hne : ((x.enter .challenged).choose select request).2.stage ≠ .failed := by
    rw [hchosen.stage_eq, enter_stage]
    decide
  unfold answer
  generalize (x.enter .challenged).choose select request = found at hchosen hne
  obtain ⟨fault | side, y⟩ := found
  · rw [Settled, settle_error, fail_of_ne hne]
    exact .unchosen request fault y hstage hrequest hok hchosen
  · dsimp only
    split
    next fault hrespond =>
      rw [Settled, settle_error, fail_of_ne hne]
      exact .unanswered request fault side y hstage hrequest hok hchosen hrespond
    next reply next hrespond =>
      exact .replied request reply side next y hstage hrequest hok hchosen hrespond
    next next hrespond =>
      exact .silent request side next y hstage hrequest hok hchosen hrespond

theorem onRequest_settled {x : Exchange S H} {frame : Frame} {request : AuthRequest}
    (hturn : isListening x.stage = true) (hrequest : frame.request? = some (.ok request)) :
    Settled select x frame (x.onRequest select request) := by
  unfold onRequest
  split
  · exact settled_of_error _ hturn
  next hstage =>
    have hasking : x.stage.isAuthenticating = true := by
      rw [isListening_eq] at hturn
      simpa [hstage] using hturn
    split
    next hok =>
      have hrequest : frame.request? = some (.ok .ok) := by
        cases request <;> first | exact hrequest | cases hok
      unfold accept
      split
      · exact settled_of_error _ hturn
      next hfilter =>
        refine .admitted hasking hrequest fun side hside => ?_
        have hkept := Option.filter_eq_none_iff.mp hfilter side hside
        simpa using hkept
    next hok =>
      have hne : request ≠ .ok := by
        rintro rfl
        exact hok rfl
      exact answer_settled hasking hrequest hne

theorem take_settled {x : Exchange S H} {frame : Frame} (hturn : isListening x.stage = true) :
    Settled select x frame (x.take select frame) := by
  unfold take
  split
  · exact settled_of_error _ hturn
  next hkind =>
    have hrequest : frame.request? = some (AuthRequest.parse frame.payload) := if_pos hkind
    split
    · exact settled_of_error _ hturn
    next request hparse => exact onRequest_settled hturn (hparse ▸ hrequest)
  next hkind =>
    split
    · exact settled_of_error _ hturn
    next status hparse => exact .noted _ hturn (.parameter status hkind hparse)
  next hkind =>
    split
    · exact settled_of_error _ hturn
    next key hparse => exact .noted _ hturn (.key key hkind hparse)
  next hkind =>
    split
    next hstage => exact .opened hstage hkind
    · exact settled_of_error _ hturn
  next hE hR hS hK hZ =>
    refine .noted _ hturn (.passed ?_)
    simp only [List.mem_cons, List.not_mem_nil, or_false, not_or]
    exact ⟨hE, hR, hS, hK, hZ⟩

/-- Every message that is handed to an exchange has a receipt. -/
theorem receive_receipt (select : S → AuthRequest → Except Fault H × S) (x : Exchange S H)
    (frame : Frame) :
    Receipt select x frame (x.receive select frame).1 (x.receive select frame).2 := by
  rw [receive_eq_settle]
  split
  next hturn => exact take_settled hturn
  next hturn => exact .outOfTurn _ (by simpa using hturn)

end Exchange

end PgFrontend
