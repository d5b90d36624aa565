import PgFrontend.Proofs.Exchange.History
import PgFrontend.Proofs.Scram.Dialogue
import PgFrontend.Session.Factory
/-!
# Exchanges of a client with credentials

Runs of an exchange whose mechanism is chosen by `Credentials.handlerFor`, from the startup packet
on.  `Tracks` is the invariant that ties the exchange to the dialogue: as long as the server may
still ask for authentication, the side that answers tells all that was heard and said.
-/

namespace PgFrontend.Exchange

/-- The results of messages after the startup packet is out, and the exchange after them. -/
def opened (c : Credentials) (nonce : String) (frames : List Frame) :
    List (Except Fault (Option Step)) × Exchange Credentials Handler :=
  perform (Factory.select nonce) (start c) (.startupSent :: frames.map .message)

def heard (frames : List Frame) : List (Except Fault AuthRequest) :=
  frames.filterMap Frame.request?

def reply? : Except Fault (Option Step) → Option ClientMessage
  | .ok (some (.send reply)) => some reply
  | _ => none

def said (results : List (Except Fault (Option Step))) : List ClientMessage :=
  results.filterMap reply?

theorem heard_concat (frames : List Frame) (frame : Frame) :
    heard (frames ++ [frame]) = heard frames ++ frame.request?.toList := by
  rw [heard, List.filterMap_append]
  cases hrequest : frame.request? <;> simp [heard, hrequest]

theorem said_concat (results : List (Except Fault (Option Step)))
    (result : Except Fault (Option Step)) :
    said (results ++ [result]) = said results ++ (reply? result).toList := by
  rw [said, List.filterMap_append]
  cases hreply : reply? result <;> simp [said, hreply]

theorem opened_concat (c : Credentials) (nonce : String) (frames : List Frame) (frame : Frame) :
    opened c nonce (frames ++ [frame]) =
      ((opened c nonce frames).1 ++
          [((opened c nonce frames).2.receive (Factory.select nonce) frame).1.map some],
        ((opened c nonce frames).2.receive (Factory.select nonce) frame).2) := by
  rw [opened, List.map_append, ← List.cons_append]
  exact perform_concat (Factory.select nonce) (start c) _ (.message frame)

theorem recorded_opened (c : Credentials) (nonce : String) (frames : List Frame) :
    (opened c nonce frames).2.Recorded :=
  recorded_perform (Factory.select nonce) c _

/-- The exchange of a client with some credentials, after it has heard and said something. -/
structure Tracks (c : Credentials) (nonce : String) (x : Exchange Credentials Handler)
    (requests : List (Except Fault AuthRequest)) (replies : List ClientMessage) : Prop where
  chooser_eq : x.chooser = c
  mechanism_eq : x.outcome.mechanism = x.handler.map Authenticator.mechanism
  dialogue : x.stage.isAuthenticating = true → Dialogue c nonce x.handler requests replies

variable {c : Credentials} {nonce : String} {x y : Exchange Credentials Handler}
  {requests : List (Except Fault AuthRequest)} {replies : List ClientMessage} {request : AuthRequest}

theorem mechanism_respond {side next : Handler} {reply : Option ClientMessage}
    (h : Authenticator.respond side request = .ok (reply, next)) :
    Authenticator.mechanism next = Authenticator.mechanism side := by
  cases side with
  | password p =>
      obtain ⟨q, rfl⟩ := Handler.respond_password_eq_ok h
      rfl
  | scram s =>
      obtain ⟨t, -, rfl⟩ := Handler.respond_scram_eq_ok h
      rfl

theorem Tracks.chosen {found : Except Fault Handler} (h : Tracks c nonce x requests replies)
    (hchosen : Chosen (Factory.select nonce) x request found y) :
    y.chooser = c ∧ y.outcome.mechanism = y.handler.map Authenticator.mechanism := by
  cases hchosen with
  | before => exact ⟨h.chooser_eq, h.mechanism_eq⟩
  | now side chooser hhandler hselect =>
      exact ⟨(congrArg Prod.snd hselect).symm.trans h.chooser_eq, rfl⟩
  | never fault chooser hhandler hselect =>
      exact ⟨(congrArg Prod.snd hselect).symm.trans h.chooser_eq, h.mechanism_eq⟩

theorem Tracks.enter (h : Tracks c nonce x requests replies) (hstage : x.stage.isAuthenticating = true)
    (s : Stage) : Tracks c nonce (x.enter s) requests replies :=
  ⟨h.chooser_eq, h.mechanism_eq, fun _ => h.dialogue hstage⟩

theorem Tracks.fail (h : Tracks c nonce x requests replies) (requests' : List (Except Fault AuthRequest))
    (replies' : List ClientMessage) : Tracks c nonce x.fail requests' replies' := by
  have hstage : ¬x.fail.stage.isAuthenticating = true := by
    rw [fail_stage]
    decide
  exact ⟨by rw [fail_chooser, h.chooser_eq], by rw [fail_outcome, fail_handler, h.mechanism_eq],
    fun hasking => absurd hasking hstage⟩

theorem Tracks.answered {side next : Handler} {reply : Option ClientMessage}
    (h : Tracks c nonce x requests replies) (hstage : x.stage.isAuthenticating = true)
    (hchosen : Chosen (Factory.select nonce) x request (.ok side) y)
    (hrespond : Authenticator.respond side request = .ok (reply, next)) :
    Tracks c nonce { y with handler := some next } (requests ++ [.ok request])
      (replies ++ reply.toList) := by
  obtain ⟨hchooser, hmechanism⟩ := h.chosen hchosen
  refine ⟨hchooser, ?_, fun _ => ?_⟩
  · show y.outcome.mechanism = _
    rw [hmechanism, hchosen.handler_eq, Option.map_some, Option.map_some,
      mechanism_respond hrespond]
  · have hdialogue := h.dialogue hstage
    cases hchosen with
    | before side hhandler =>
        rw [hhandler] at hdialogue
        exact hdialogue.step hrespond
    | now side chooser hhandler hselect =>
        rw [hhandler] at hdialogue
        cases hdialogue
        have hside : c.handlerFor nonce request = .ok side := by
          rw [← h.chooser_eq]
          exact congrArg Prod.fst hselect
        exact Dialogue.start hside hrespond

theorem Tracks.receipt {frame : Frame} {result : Except Fault Step}
    (h : Tracks c nonce x requests replies)
    (hreceipt : Receipt (Factory.select nonce) x frame result y) :
    Tracks c nonce y (requests ++ frame.request?.toList)
      (replies ++ (reply? (result.map some)).toList) := by
  cases hreceipt with
  | outOfTurn fault hturn => exact h.fail _ _
  | refused => exact ⟨h.chooser_eq, h.mechanism_eq, nofun⟩
  | noted outcome hturn hnotes =>
      rw [hnotes.request?_eq_none, Option.toList_none, List.append_nil,
        show (replies ++ (reply? (Except.map some (.ok .wait))).toList) = replies from List.append_nil _]
      exact ⟨h.chooser_eq, hnotes.mechanism_eq.trans h.mechanism_eq, h.dialogue⟩
  | opened => exact ⟨h.chooser_eq, h.mechanism_eq, nofun⟩
  | admitted => exact ⟨h.chooser_eq, h.mechanism_eq, nofun⟩
  | unchosen request fault y hstage hrequest hok hchosen =>
      obtain ⟨hchooser, hmechanism⟩ := (h.enter hstage _).chosen hchosen
      exact ⟨hchooser, hmechanism, nofun⟩
  | unanswered request fault side y hstage hrequest hok hchosen =>
      obtain ⟨hchooser, hmechanism⟩ := (h.enter hstage _).chosen hchosen
      exact ⟨hchooser, hmechanism, nofun⟩
  | replied request reply side next y hstage hrequest hok hchosen hrespond =>
      have hasking : y.stage.isAuthenticating = true :=
        congrArg Stage.isAuthenticating hchosen.stage_eq
      rw [hrequest]
      exact ((h.enter hstage .challenged).answered rfl hchosen hrespond).enter hasking _
  | silent request side next y hstage hrequest hok hchosen hrespond =>
      rw [hrequest]
      exact (h.enter hstage .challenged).answered rfl hchosen hrespond

theorem tracks_opened (c : Credentials) (nonce : String) (frames : List Frame) :
    Tracks c nonce (opened c nonce frames).2 (heard frames) (said (opened c nonce frames).1) := by
  induction frames using List.reverseRecOn with
  | nil => exact ⟨rfl, rfl, fun _ => .unasked⟩
  | append_singleton frames frame ih =>
      rw [opened_concat, heard_concat, said_concat]
      exact ih.receipt (receive_receipt (Factory.select nonce) _ frame)

/-- A client that may be let in, and answers by SCRAM, has heard the server's proof. -/
theorem Tracks.proven (h : Tracks c nonce x requests replies)
    (hstage : x.stage.isAuthenticating = true)
    (hmechanism : x.outcome.mechanism = some Scram.mechanism)
    (hcomplete : ∀ side ∈ x.handler, Authenticator.isComplete side = true) :
    ∃ offer first text asked salt last lastText,
      requests = [.ok (.sasl offer), .ok (.saslContinue first), .ok (.saslFinal last)] ∧
      replies = [c.first nonce, c.final nonce text asked salt] ∧
      Scram.mechanism ∈ offer ∧ Scram.FirstTaken nonce first text asked salt ∧
      Scram.LastTaken (c.salted asked salt) (c.signed nonce text asked) last lastText := by
  have hdialogue := h.dialogue hstage
  rw [h.mechanism_eq] at hmechanism
  generalize x.handler = handler at hdialogue hmechanism hcomplete
  cases hdialogue with
  | unasked => cases hmechanism
  | password =>
      have hname : "password" = Scram.mechanism := Option.some.inj hmechanism
      exact absurd hname (by decide)
  | offered => cases hcomplete _ rfl
  | challenged => cases hcomplete _ rfl
  | @proven offer first last text lastText asked salt hoffer hfirst hlast =>
      exact ⟨offer, first, text, asked, salt, last, lastText, rfl, rfl, hoffer, hfirst, hlast⟩

/-! ## The one message that lets the client in -/

variable {S H : Type}

theorem Recorded.not_authenticating {x : Exchange S H} (h : x.Recorded)
    (hadmitted : .authenticated ∈ x.history) : x.stage.isAuthenticating = false := by
  obtain ⟨earlier, hearlier⟩ := List.getLast?_eq_some_iff.mp h.ends
  have hpairwise : x.history.Pairwise Stage.Precedes :=
    List.isChain_iff_pairwise.mp (h.moves.imp fun _ _ => Stage.Move.precedes)
  rw [hearlier, List.pairwise_append] at hpairwise
  rw [hearlier, List.mem_append, List.mem_singleton] at hadmitted
  rcases hadmitted with hbefore | hlast
  · have hprecedes : Stage.Precedes .authenticated x.stage :=
      hpairwise.2.2 _ hbefore _ (List.mem_singleton_self _)
    revert hprecedes
    cases x.stage <;> decide
  · rw [← hlast]
    rfl

theorem Recorded.authenticated_mem {x : Exchange S H} (h : x.Recorded)
    (hopened : .ready ∈ x.history) : .authenticated ∈ x.history := by
  obtain ⟨earlier, later, hhistory⟩ := List.append_of_mem hopened
  cases earlier using List.reverseRecOn with
  | nil =>
      have hstarts := h.starts
      rw [hhistory] at hstarts
      cases hstarts
  | append_singleton earlier s =>
      have hmoves := h.moves
      rw [hhistory, List.append_assoc, List.singleton_append,
        List.isChain_append_cons_cons] at hmoves
      obtain ⟨-, hmove, -⟩ := hmoves
      cases hmove
      simp [hhistory]

theorem mem_history_fail {x : Exchange S H} {s : Stage} (h : s ∈ x.fail.history) :
    s ∈ x.history ++ [.failed] := by
  by_cases hstage : x.stage = .failed
  · rw [fail_of_eq hstage] at h
    exact List.mem_append_left _ h
  · rwa [fail_of_ne hstage] at h

variable [Authenticator H] {select : S → AuthRequest → Except Fault H × S}

theorem Receipt.admits {x y : Exchange S H} {frame : Frame} {result : Except Fault Step}
    (h : Receipt select x frame result y) (hbefore : .authenticated ∉ x.history)
    (hafter : .authenticated ∈ y.history) :
    x.stage.isAuthenticating = true ∧ frame.request? = some (.ok .ok) ∧
      (∀ side ∈ x.handler, Authenticator.isComplete side = true) ∧
      result = .ok .wait ∧ y = x.enter .authenticated := by
  cases h with
  | admitted hstage hrequest hcomplete => exact ⟨hstage, hrequest, hcomplete, rfl, rfl⟩
  | outOfTurn =>
      have hentered : .authenticated ∈ x.history ++ [.failed] := mem_history_fail hafter
      simp [hbefore] at hentered
  | refused => simp [hbefore] at hafter
  | noted => exact absurd hafter hbefore
  | opened => simp [hbefore] at hafter
  | unchosen _ _ _ _ _ _ hchosen => simp [hchosen.history_eq, hbefore] at hafter
  | unanswered _ _ _ _ _ _ _ hchosen => simp [hchosen.history_eq, hbefore] at hafter
  | replied _ _ _ _ _ _ _ _ hchosen => simp [hchosen.history_eq, hbefore] at hafter
  | silent _ _ _ _ _ _ _ hchosen => simp [hchosen.history_eq, hbefore] at hafter

theorem Receipt.mechanism_eq {x y : Exchange S H} {frame : Frame} {result : Except Fault Step}
    (h : Receipt select x frame result y) (hstage : x.stage.isAuthenticating = false) :
    y.outcome.mechanism = x.outcome.mechanism := by
  cases h with
  | outOfTurn => rw [fail_outcome]
  | refused => rfl
  | noted _ _ hnotes => exact hnotes.mechanism_eq
  | opened => rfl
  | admitted hasking => simp [hstage] at hasking
  | unchosen _ _ _ hasking => simp [hstage] at hasking
  | unanswered _ _ _ _ hasking => simp [hstage] at hasking
  | replied _ _ _ _ _ hasking => simp [hstage] at hasking
  | silent _ _ _ _ hasking => simp [hstage] at hasking

/-- After some messages, the next one lets the client in. -/
structure Admission (c : Credentials) (nonce : String) (before : List Frame) (frame : Frame) :
    Prop where
  not_before : .authenticated ∉ (opened c nonce before).2.history
  entered : .authenticated ∈ (opened c nonce (before ++ [frame])).2.history
  asking : (opened c nonce before).2.stage.isAuthenticating = true
  complete : ∀ side ∈ (opened c nonce before).2.handler, Authenticator.isComplete side = true
  heard_eq : heard (before ++ [frame]) = heard before ++ [.ok .ok]
  said_eq : said (opened c nonce (before ++ [frame])).1 = said (opened c nonce before).1

theorem admission_of_entered {before : List Frame} {frame : Frame}
    (hbefore : .authenticated ∉ (opened c nonce before).2.history)
    (hafter : .authenticated ∈ (opened c nonce (before ++ [frame])).2.history) :
    Admission c nonce before frame ∧
      (opened c nonce (before ++ [frame])).2.outcome = (opened c nonce before).2.outcome := by
  have hreceived := hafter
  rw [opened_concat] at hreceived
  obtain ⟨hasking, hrequest, hcomplete, hresult, hnext⟩ :=
    (receive_receipt (Factory.select nonce) _ frame).admits hbefore hreceived
  refine ⟨⟨hbefore, hafter, hasking, hcomplete, ?_, ?_⟩, ?_⟩
  · rw [heard_concat, hrequest, Option.toList_some]
  · rw [opened_concat, said_concat, hresult]
    exact List.append_nil _
  · rw [opened_concat, hnext, enter_outcome]

theorem exists_admission {frames : List Frame}
    (hadmitted : .authenticated ∈ (opened c nonce frames).2.history) :
    ∃ before frame after, frames = before ++ frame :: after ∧ Admission c nonce before frame ∧
      (opened c nonce frames).2.outcome.mechanism =
        (opened c nonce before).2.outcome.mechanism := by
  induction frames using List.reverseRecOn with
  | nil =>
      have hstages : .authenticated ∈ [Stage.init, .startupSent] := hadmitted
      exact absurd hstages (by decide)
  | append_singleton frames frame ih =>
      by_cases hbefore : .authenticated ∈ (opened c nonce frames).2.history
      · obtain ⟨before, admitting, after, rfl, hadmission, hmechanism⟩ := ih hbefore
        have hstage := (recorded_opened c nonce _).not_authenticating hbefore
        refine ⟨before, admitting, after ++ [frame], by simp, hadmission, ?_⟩
        rw [opened_concat, ← hmechanism]
        exact (receive_receipt (Factory.select nonce) _ frame).mechanism_eq hstage
      · obtain ⟨hadmission, houtcome⟩ := admission_of_entered hbefore hadmitted
        exact ⟨frames, frame, [], rfl, hadmission, by rw [houtcome]⟩

end PgFrontend.Exchange
