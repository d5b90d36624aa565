import PgFrontend.Proofs.Auth.Request
import PgFrontend.Proofs.Exchange.Progress
import PgFrontend.Proofs.Scram.Dialogue
import PgFrontend.Session.Factory
/-!
# The first request of the server

The reading of requests, the choice of a mechanism and its first answer are separate. `FirstReceipt`
says what comes of a first request when they are put together, and `receive_first_exact` tells from
the octets of the request whether it is answered.
-/

namespace PgFrontend

open Octets

namespace Credentials

/-- What a first request is answered with, if it can be answered. -/
def answer? (c : Credentials) (nonce : String) : AuthRequest → Option ClientMessage
  | .cleartextPassword => some (.password (ofString c.password ++ [0]))
  | .md5Password salt => some (.password (Password.salted ⟨c.user, c.password⟩ salt ++ [0]))
  | .sasl names => if Scram.mechanism ∈ names then some (c.first nonce) else none
  | _ => none

variable {c : Credentials} {nonce : String} {request : AuthRequest} {reply : ClientMessage}

/-- A mechanism is found for each request that can be answered, and answers it. -/
theorem exists_side (h : c.answer? nonce request = some reply) :
    ∃ side next, c.handlerFor nonce request = .ok side ∧
      Authenticator.respond side request = .ok (some reply, next) := by
  cases request with
  | cleartextPassword =>
      cases h
      exact ⟨.password ⟨c.user, c.password⟩, _, rfl, rfl⟩
  | md5Password salt =>
      cases h
      exact ⟨.password ⟨c.user, c.password⟩, _, rfl, rfl⟩
  | sasl names =>
      rw [answer?] at h
      split at h
      next hoffer =>
        cases h
        exact ⟨_, _, handlerFor_offer hoffer, respond_offer⟩
      · cases h
  | _ => cases h

theorem handlerFor_eq_error (h : c.answer? nonce request = none) :
    c.handlerFor nonce request = .error (.unsupportedAuthentication (.request request)) := by
  have hpassword : ¬Password.supports request = true := by
    cases request with
    | cleartextPassword => cases h
    | md5Password salt => cases h
    | _ => exact nofun
  have hscram : ¬Scram.supports request = true := by
    intro hsupports
    obtain ⟨offer, rfl, hoffer⟩ := Scram.supports_iff.mp hsupports
    rw [answer?, if_pos hoffer] at h
    cases h
  rw [handlerFor, if_neg hpassword, if_neg hscram]

/-- A mechanism that is found for a request answers it. -/
theorem exists_reply {side : Handler} (h : c.handlerFor nonce request = .ok side) :
    ∃ reply next, Authenticator.respond side request = .ok (some reply, next) := by
  cases hanswer : c.answer? nonce request with
  | none => cases h.symm.trans (handlerFor_eq_error hanswer)
  | some reply =>
      obtain ⟨side', next, hside, hrespond⟩ := exists_side hanswer
      obtain rfl : side = side' := Except.ok.inj (h.symm.trans hside)
      exact ⟨reply, next, hrespond⟩

/-- The octets of a first request that can be answered, and the answer: a password, a digest of it
for a whole salt, or SCRAM if this name is one of those that are listed. -/
inductive Answered (c : Credentials) (nonce : String) : Octets → ClientMessage → Prop
  | cleartext (rest : Octets) :
      Answered c nonce (ofInt32 3 ++ rest) (.password (ofString c.password ++ [0]))
  | salted (salt rest : Octets) (hsalt : salt.length = 4) :
      Answered c nonce (ofInt32 5 ++ (salt ++ rest))
        (.password (Password.salted ⟨c.user, c.password⟩ salt ++ [0]))
  | scram (s : Octets) (listed : List Octets) (rest : Octets)
      (hlisted : AuthRequest.Listed s listed rest) (hname : ofString "SCRAM-SHA-256" ∈ listed) :
      Answered c nonce (ofInt32 10 ++ s)
        (.saslInitialResponse "SCRAM-SHA-256" (ofChars ("n,,".toList ++ c.firstBare nonce)))

theorem answered_iff {payload : Octets} :
    c.Answered nonce payload reply ↔
      ∃ request, AuthRequest.Held payload request ∧ c.answer? nonce request = some reply := by
  have hmechanism : Utf8.replacement ∉ Scram.mechanism.toList := by decide
  constructor
  · intro h
    cases h with
    | cleartext rest => exact ⟨_, .cleartextPassword rest, rfl⟩
    | salted salt rest hsalt => exact ⟨_, .md5Password salt rest hsalt, rfl⟩
    | scram s listed rest hlisted hname =>
        exact ⟨_, .sasl s listed rest hlisted,
          if_pos ((AuthRequest.mem_map_lossy_iff hmechanism).mpr hname)⟩
  · rintro ⟨request, hheld, hanswer⟩
    cases hheld with
    | cleartextPassword rest =>
        cases hanswer
        exact .cleartext rest
    | md5Password salt rest hsalt =>
        cases hanswer
        exact .salted salt rest hsalt
    | sasl s listed rest hlisted =>
        rw [answer?] at hanswer
        split at hanswer
        next hoffer =>
          cases hanswer
          exact .scram s listed rest hlisted ((AuthRequest.mem_map_lossy_iff hmechanism).mp hoffer)
        · cases hanswer
    | _ => cases hanswer

end Credentials

namespace Exchange

variable {x y : Exchange Credentials Handler} {nonce : String} {frame : Frame}
  {request : AuthRequest} {reply : ClientMessage}

/-- Everything that can come of a first request. -/
inductive FirstReceipt (x : Exchange Credentials Handler) (nonce : String) (payload : Octets) :
    Except Fault Step → Exchange Credentials Handler → Prop
  | malformed (violation : Violation) (hmalformed : AuthRequest.Malformed payload) :
      FirstReceipt x nonce payload (.error (.protocol violation)) (x.enter .failed)
  | admitted (hheld : AuthRequest.Held payload .ok) :
      FirstReceipt x nonce payload (.ok .wait) (x.enter .authenticated)
  | answered (request : AuthRequest) (reply : ClientMessage) (y : Exchange Credentials Handler)
      (hheld : AuthRequest.Held payload request)
      (hanswer : x.chooser.answer? nonce request = some reply) :
      FirstReceipt x nonce payload (.ok (.send reply)) y
  | unanswered (request : AuthRequest) (hheld : AuthRequest.Held payload request)
      (hok : request ≠ .ok) (hanswer : x.chooser.answer? nonce request = none) :
      FirstReceipt x nonce payload (.error (.unsupportedAuthentication (.request request)))
        ((x.enter .challenged).enter .failed)

theorem receive_answered (hstage : x.stage.isAuthenticating = true) (hhandler : x.handler = none)
    (hrequest : frame.request? = some (.ok request))
    (hanswer : x.chooser.answer? nonce request = some reply) :
    (x.receive (Factory.select nonce) frame).1 = .ok (.send reply) := by
  have hmore : request.isOk = false := by
    cases request with
    | ok => cases hanswer
    | _ => rfl
  have hnone : (x.enter .challenged).handler = none := hhandler
  obtain ⟨side, next, hside, hrespond⟩ := Credentials.exists_side hanswer
  have hselect : Factory.select nonce (x.enter .challenged).chooser request =
      (.ok side, x.chooser) := by
    rw [Factory.select, enter_chooser, hside]
  rw [receive_asked hstage hrequest hmore, answer_replied (choose_of_none hnone hselect) hrespond,
    settle_ok]

theorem receive_unanswered (hstage : x.stage.isAuthenticating = true) (hhandler : x.handler = none)
    (hrequest : frame.request? = some (.ok request)) (hmore : request.isOk = false)
    (hanswer : x.chooser.answer? nonce request = none) :
    x.receive (Factory.select nonce) frame =
      (.error (.unsupportedAuthentication (.request request)),
        (x.enter .challenged).enter .failed) := by
  have hnone : (x.enter .challenged).handler = none := hhandler
  have hselect : Factory.select nonce (x.enter .challenged).chooser request =
      (.error (.unsupportedAuthentication (.request request)), x.chooser) := by
    rw [Factory.select, enter_chooser, Credentials.handlerFor_eq_error hanswer]
  rw [receive_asked hstage hrequest hmore, answer_refused (choose_of_refused hnone hselect),
    settle_error, fail_of_ne (show Stage.challenged ≠ .failed by decide)]
  rfl

theorem receive_firstReceipt (nonce : String) (hstage : x.stage.isAuthenticating = true)
    (hhandler : x.handler = none) (hkind : frame.kind = 'R') :
    FirstReceipt x nonce frame.payload (x.receive (Factory.select nonce) frame).1
      (x.receive (Factory.select nonce) frame).2 := by
  by_cases hmalformed : AuthRequest.Malformed frame.payload
  · obtain ⟨violation, hparse⟩ := hmalformed.parse_eq
    have hrequest : frame.request? = some (.error (.protocol violation)) :=
      (if_pos hkind).trans (congrArg some hparse)
    rw [receive_unreadable hstage hrequest]
    exact .malformed violation hmalformed
  obtain ⟨request, hheld⟩ := AuthRequest.exists_held hmalformed
  have hrequest : frame.request? = some (.ok request) :=
    (if_pos hkind).trans (congrArg some hheld.parse_eq)
  cases hanswer : x.chooser.answer? nonce request with
  | some reply =>
      rw [receive_answered hstage hhandler hrequest hanswer]
      exact .answered request reply _ hheld hanswer
  | none =>
      cases hok : request.isOk with
      | true =>
          obtain rfl : request = .ok := by
            cases request with
            | ok => rfl
            | _ => cases hok
          rw [receive_unasked hstage hrequest hhandler]
          exact .admitted hheld
      | false =>
          rw [receive_unanswered hstage hhandler hrequest hok hanswer]
          refine .unanswered request hheld ?_ hanswer
          rintro rfl
          cases hok

namespace FirstReceipt

variable {payload : Octets} {result : Except Fault Step}

theorem admits (h : FirstReceipt x nonce payload result y) (hheld : AuthRequest.Held payload .ok) :
    result = .ok .wait ∧ y = x.enter .authenticated := by
  cases h with
  | malformed violation hmalformed => exact absurd hmalformed hheld.not_malformed
  | admitted => exact ⟨rfl, rfl⟩
  | answered request reply y hheld' hanswer =>
      obtain rfl := hheld.unique hheld'
      cases hanswer
  | unanswered request hheld' hok => exact absurd (hheld.unique hheld') hok

theorem replies_iff (h : FirstReceipt x nonce payload result y) :
    result = .ok (.send reply) ↔ x.chooser.Answered nonce payload reply := by
  rw [Credentials.answered_iff]
  cases h with
  | malformed violation hmalformed =>
      refine iff_of_false nofun ?_
      rintro ⟨request, hheld, -⟩
      exact hheld.not_malformed hmalformed
  | admitted hheld =>
      refine iff_of_false nofun ?_
      rintro ⟨request, hheld', hanswer⟩
      obtain rfl := hheld.unique hheld'
      cases hanswer
  | answered request reply y hheld hanswer =>
      constructor
      · intro h
        cases h
        exact ⟨request, hheld, hanswer⟩
      · rintro ⟨request', hheld', hanswer'⟩
        obtain rfl := hheld.unique hheld'
        rw [Option.some.inj (hanswer.symm.trans hanswer')]
  | unanswered request hheld hok hanswer =>
      refine iff_of_false nofun ?_
      rintro ⟨request', hheld', hanswer'⟩
      obtain rfl := hheld.unique hheld'
      cases hanswer.symm.trans hanswer'

theorem refuses (h : FirstReceipt x nonce payload result y) (hhandler : x.handler = none)
    (hadmitted : ¬AuthRequest.Held payload .ok)
    (hanswered : ∀ reply, ¬x.chooser.Answered nonce payload reply) :
    y.stage = .failed ∧ y.handler = none ∧
      ((AuthRequest.Malformed payload ∧ ∃ violation, result = .error (.protocol violation)) ∨
        (¬AuthRequest.Malformed payload ∧ ∃ request, AuthRequest.Held payload request ∧
          result = .error (.unsupportedAuthentication (.request request)))) := by
  cases h with
  | malformed violation hmalformed =>
      exact ⟨rfl, hhandler, .inl ⟨hmalformed, violation, rfl⟩⟩
  | admitted hheld => exact absurd hheld hadmitted
  | answered request reply y hheld hanswer =>
      exact absurd (Credentials.answered_iff.mpr ⟨request, hheld, hanswer⟩) (hanswered reply)
  | unanswered request hheld =>
      exact ⟨rfl, hhandler, .inr ⟨hheld.not_malformed, request, hheld, rfl⟩⟩

end FirstReceipt

/-- **The first request is answered just if it can be.**  Code 0 lets the client in without a reply.
There is a reply just if the request asks for a password, or for its digest with a whole salt, or
lists SCRAM-SHA-256 as a whole name, and it is the one that belongs there.  After any other payload
the exchange has failed, and no mechanism was chosen: the payload violates the protocol if it ends
within the code or the salt, and otherwise the client does not support what it asks for.  So a
mechanism that is chosen for a request answers it. -/
theorem receive_first_exact (nonce : String) (x : Exchange Credentials Handler) (payload : Octets)
    (hstage : x.stage = .startupSent) (hhandler : x.handler = none) :
    let received := x.receive (Factory.select nonce) { tag := 82, payload }
    (∀ rest, payload = ofInt32 0 ++ rest → received = (.ok .wait, x.enter .authenticated)) ∧
    (∀ reply, received.1 = .ok (.send reply) ↔ x.chooser.Answered nonce payload reply) ∧
    ((∀ rest, payload ≠ ofInt32 0 ++ rest) →
      (∀ reply, ¬x.chooser.Answered nonce payload reply) →
      received.2.stage = .failed ∧ received.2.handler = none ∧
        ((AuthRequest.Malformed payload ∧
            ∃ violation, received.1 = .error (.protocol violation)) ∨
          (¬AuthRequest.Malformed payload ∧ ∃ request, AuthRequest.Held payload request ∧
            received.1 = .error (.unsupportedAuthentication (.request request))))) ∧
    ∀ request side, x.chooser.handlerFor nonce request = .ok side →
      ∃ reply next, Authenticator.respond side request = .ok (some reply, next) := by
  intro received
  have hasking : x.stage.isAuthenticating = true := by
    rw [hstage]
    rfl
  have hkind : Frame.kind { tag := 82, payload } = 'R' := rfl
  have hreceipt : FirstReceipt x nonce payload received.1 received.2 :=
    receive_firstReceipt nonce hasking hhandler hkind
  refine ⟨?_, fun _ => hreceipt.replies_iff, ?_, fun _ _ => Credentials.exists_reply⟩
  · rintro rest rfl
    obtain ⟨hresult, hnext⟩ := hreceipt.admits (.ok rest)
    exact Prod.ext hresult hnext
  · intro hcode
    refine hreceipt.refuses hhandler fun hheld => ?_
    cases hheld with
    | ok rest => exact hcode rest rfl

/-- A list in which the name comes after a longer one that begins with it, and a list with the longer
name only. -/
theorem receive_first_exact_names :
    let x : Exchange Credentials Handler := { chooser := ⟨"user", "pencil"⟩, stage := .startupSent }
    let longer : Octets := ofString "SCRAM-SHA-256-PLUS"
    let both : Octets := ofInt32 10 ++ (longer ++ 0 :: (ofString "SCRAM-SHA-256" ++ [0, 0]))
    let one : Octets := ofInt32 10 ++ (longer ++ [0, 0])
    (x.receive (Factory.select "abc") { tag := 82, payload := both }).1 =
        .ok (.send (.saslInitialResponse "SCRAM-SHA-256" (ofString "n,,n=user,r=abc"))) ∧
      (x.receive (Factory.select "abc") { tag := 82, payload := one }).2.stage = .failed := by
  intro x longer both one
  have hboth : AuthRequest.Listed (longer ++ 0 :: (ofString "SCRAM-SHA-256" ++ [0, 0]))
      [longer, ofString "SCRAM-SHA-256"] [0] :=
    ⟨by decide, by decide, .empty []⟩
  have hone : AuthRequest.Listed (longer ++ [0, 0]) [longer] [0] :=
    ⟨by decide, by decide, .empty []⟩
  have hheld : AuthRequest.Held one (.sasl ([longer].map Utf8.lossy)) := .sasl _ _ _ hone
  have hdata : ofChars ("n,,".toList ++ x.chooser.firstBare "abc") = ofString "n,,n=user,r=abc" := by
    decide +kernel
  have hlacking : Scram.mechanism ∉ [longer].map Utf8.lossy := by
    rw [AuthRequest.mem_map_lossy_iff (by decide)]
    decide
  obtain ⟨-, hreply, -, -⟩ := receive_first_exact "abc" x both rfl rfl
  obtain ⟨-, -, hrefused, -⟩ := receive_first_exact "abc" x one rfl rfl
  refine ⟨hdata ▸ (hreply _).mpr (.scram _ _ _ hboth (by decide)), (hrefused ?_ ?_).1⟩
  · intro rest hrest
    have hadmitting : AuthRequest.Held one .ok := hrest ▸ .ok rest
    cases hheld.unique hadmitting
  · intro reply hanswered
    obtain ⟨request, hheld', hanswer⟩ := Credentials.answered_iff.mp hanswered
    obtain rfl := hheld.unique hheld'
    rw [Credentials.answer?, if_neg hlacking] at hanswer
    cases hanswer

end Exchange

end PgFrontend
