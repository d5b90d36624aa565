import PgFrontend.Proofs.Exchange.Receipt
/-!
# Two exchanges side by side

Two exchanges that show the same and are handed the same message go on showing the same, as long as
what chooses and what answers in the one is matched by what chooses and what answers in the other.
Their sides may come to give different replies; from then on nothing is said of them.
-/

namespace PgFrontend

/-- Two computations that fail alike or succeed with related results. -/
inductive FailAlike {α β : Type} (R : α → β → Prop) : Except Fault α → Except Fault β → Prop
  | error (fault : Fault) : FailAlike R (.error fault) (.error fault)
  | ok {a : α} {b : β} (h : R a b) : FailAlike R (.ok a) (.ok b)

theorem FailAlike.rfl {α : Type} (x : Except Fault α) : FailAlike Eq x x := by
  cases x with
  | error fault => exact .error fault
  | ok a => exact .ok (Eq.refl a)

namespace Exchange

variable {S T H K : Type}

/-- What can be seen of two exchanges is the same. -/
structure LooksLike (x : Exchange S H) (y : Exchange T K) : Prop where
  stage_eq : x.stage = y.stage
  history_eq : x.history = y.history
  outcome_eq : x.outcome = y.outcome

/-- Two exchanges that look the same and whose choosers and sides are related. -/
structure Beside (R : S → T → Prop) (Q : H → K → Prop) (x : Exchange S H) (y : Exchange T K) :
    Prop extends LooksLike x y where
  chooser : R x.chooser y.chooser
  handler : Option.Rel Q x.handler y.handler

/-- How two sides answer one request: both refuse it, both give the same reply, or their replies are
only related. -/
inductive AnswerAlike (Q : H → K → Prop) (D : ClientMessage → ClientMessage → Prop) :
    Except Fault (Option ClientMessage × H) → Except Fault (Option ClientMessage × K) → Prop
  | refused (fault : Fault) : AnswerAlike Q D (.error fault) (.error fault)
  | same (reply : Option ClientMessage) {side : H} {other : K} (h : Q side other) :
      AnswerAlike Q D (.ok (reply, side)) (.ok (reply, other))
  | apart {reply reply' : ClientMessage} (side : H) (other : K) (h : D reply reply') :
      AnswerAlike Q D (.ok (some reply, side)) (.ok (some reply', other))

theorem AnswerAlike.rfl {D : ClientMessage → ClientMessage → Prop}
    (r : Except Fault (Option ClientMessage × H)) : AnswerAlike Eq D r r := by
  obtain fault | ⟨reply, side⟩ := r
  · exact .refused fault
  · exact .same reply (Eq.refl side)

theorem AnswerAlike.map {H' K' : Type} {Q : H → K → Prop} {Q' : H' → K' → Prop}
    {D : ClientMessage → ClientMessage → Prop} {r : Except Fault (Option ClientMessage × H)}
    {r' : Except Fault (Option ClientMessage × K)} (h : AnswerAlike Q D r r') {f : H → H'}
    {g : K → K'} (hsides : ∀ {side other}, Q side other → Q' (f side) (g other)) :
    AnswerAlike Q' D (r.map fun (reply, side) => (reply, f side))
      (r'.map fun (reply, other) => (reply, g other)) := by
  cases h with
  | refused fault => exact .refused fault
  | same reply hside => exact .same reply (hsides hside)
  | apart side other hreply => exact .apart (f side) (g other) hreply

/-- What comes of one message in two exchanges: the same, or replies that are only related. -/
inductive Received (R : S → T → Prop) (Q : H → K → Prop)
    (D : ClientMessage → ClientMessage → Prop) :
    Except Fault Step × Exchange S H → Except Fault Step × Exchange T K → Prop
  | same (result : Except Fault Step) {x : Exchange S H} {y : Exchange T K} (h : Beside R Q x y) :
      Received R Q D (result, x) (result, y)
  | apart {reply reply' : ClientMessage} {x : Exchange S H} {y : Exchange T K}
      (hreply : D reply reply') (h : LooksLike x y) :
      Received R Q D (.ok (.send reply), x) (.ok (.send reply'), y)

variable [Authenticator H] [Authenticator K]

/-- Choosers and sides that match: related choosers choose related sides, and related sides answer
alike and stay related as long as their replies are the same. -/
structure Matching (R : S → T → Prop) (Q : H → K → Prop) (D : ClientMessage → ClientMessage → Prop)
    (select : S → AuthRequest → Except Fault H × S)
    (select' : T → AuthRequest → Except Fault K × T) : Prop where
  select {s : S} {t : T} (h : R s t) (request : AuthRequest) :
    FailAlike Q (select s request).1 (select' t request).1 ∧
      R (select s request).2 (select' t request).2
  mechanism {side : H} {other : K} (h : Q side other) :
    Authenticator.mechanism side = Authenticator.mechanism other
  isComplete {side : H} {other : K} (h : Q side other) :
    Authenticator.isComplete side = Authenticator.isComplete other
  respond {side : H} {other : K} (h : Q side other) (request : AuthRequest) :
    AnswerAlike Q D (Authenticator.respond side request) (Authenticator.respond other request)

variable {R : S → T → Prop} {Q : H → K → Prop} {D : ClientMessage → ClientMessage → Prop}
  {select : S → AuthRequest → Except Fault H × S} {select' : T → AuthRequest → Except Fault K × T}
  {x : Exchange S H} {y : Exchange T K}

omit [Authenticator H] [Authenticator K] in
theorem LooksLike.enter (h : LooksLike x y) (s : Stage) : LooksLike (x.enter s) (y.enter s) :=
  ⟨rfl, by rw [enter_history, enter_history, h.history_eq], h.outcome_eq⟩

omit [Authenticator H] [Authenticator K] in
/-- Neither what chooses nor what answers is seen. -/
theorem LooksLike.unseen (h : LooksLike x y) (chooser : S) (chooser' : T) (handler : Option H)
    (handler' : Option K) :
    LooksLike { x with chooser, handler } { y with chooser := chooser', handler := handler' } :=
  ⟨h.stage_eq, h.history_eq, h.outcome_eq⟩

omit [Authenticator H] [Authenticator K] in
theorem Beside.enter (h : Beside R Q x y) (s : Stage) : Beside R Q (x.enter s) (y.enter s) :=
  ⟨h.toLooksLike.enter s, h.chooser, h.handler⟩

omit [Authenticator H] [Authenticator K] in
theorem Beside.fail (h : Beside R Q x y) : Beside R Q x.fail y.fail := by
  by_cases hstage : x.stage = .failed
  · have hother : y.stage = .failed := h.stage_eq ▸ hstage
    rwa [Exchange.fail, Exchange.fail, if_pos hstage, if_pos hother]
  · have hother : y.stage ≠ .failed := h.stage_eq ▸ hstage
    rw [fail_of_ne hstage, fail_of_ne hother]
    exact h.enter .failed

omit [Authenticator H] [Authenticator K] in
theorem Beside.noting (h : Beside R Q x y) (change : Outcome → Outcome) :
    Received R Q D (x.noting (change x.outcome)) (y.noting (change y.outcome)) := by
  apply Received.same
  exact ⟨⟨h.stage_eq, h.history_eq, congrArg change h.outcome_eq⟩, h.chooser, h.handler⟩

theorem choose_beside (hmatch : Matching R Q D select select') (h : Beside R Q x y)
    (request : AuthRequest) :
    FailAlike Q (x.choose select request).1 (y.choose select' request).1 ∧
      Beside R Q (x.choose select request).2 (y.choose select' request).2 := by
  obtain ⟨hlooks, hchooser, hhandler⟩ := h
  obtain ⟨chooser, handler, stage, history, outcome⟩ := x
  obtain ⟨chooser', handler', stage', history', outcome'⟩ := y
  cases hhandler with
  | some hside => exact ⟨.ok hside, hlooks, hchooser, .some hside⟩
  | none =>
      obtain ⟨hfound, hnext⟩ := hmatch.select hchooser request
      unfold choose
      dsimp only at hfound hnext ⊢
      generalize select chooser request = found at hfound hnext ⊢
      generalize select' chooser' request = found' at hfound hnext ⊢
      obtain ⟨result, next⟩ := found
      obtain ⟨result', next'⟩ := found'
      cases hfound with
      | error fault =>
          dsimp only
          exact ⟨.error fault, hlooks.unseen _ _ _ _, hnext, .none⟩
      | @ok side other hside =>
          dsimp only
          refine ⟨.ok hside, ⟨hlooks.stage_eq, hlooks.history_eq, ?_⟩, hnext, .some hside⟩
          have houtcome : outcome = outcome' := hlooks.outcome_eq
          dsimp only
          rw [houtcome, hmatch.mechanism hside]

theorem answer_received (hmatch : Matching R Q D select select') (h : Beside R Q x y)
    (request : AuthRequest) :
    Received R Q D (x.answer select request) (y.answer select' request) := by
  obtain ⟨hfound, hnext⟩ := choose_beside hmatch h request
  unfold answer
  generalize x.choose select request = found at hfound hnext ⊢
  generalize y.choose select' request = found' at hfound hnext ⊢
  obtain ⟨result, next⟩ := found
  obtain ⟨result', next'⟩ := found'
  cases hfound with
  | error fault => exact .same _ hnext
  | @ok side other hside =>
      have hanswer := hmatch.respond hside request
      dsimp only
      generalize Authenticator.respond side request = reply at hanswer ⊢
      generalize Authenticator.respond other request = reply' at hanswer ⊢
      have hkept {side' : H} {other' : K} (hside' : Q side' other') :
          Beside R Q { next with handler := some side' } { next' with handler := some other' } :=
        ⟨hnext.toLooksLike.unseen _ _ _ _, hnext.chooser, .some hside'⟩
      cases hanswer with
      | refused fault => exact .same _ hnext
      | same reply hside' =>
          cases reply with
          | none => exact .same _ (hkept hside')
          | some reply => exact .same _ ((hkept hside').enter .responded)
      | apart side' other' hreply =>
          apply Received.apart hreply
          apply LooksLike.enter
          exact hnext.toLooksLike.unseen _ _ _ _

theorem accept_received (hmatch : Matching R Q D select select') (h : Beside R Q x y) :
    Received R Q D x.accept y.accept := by
  have hhandler := h.handler
  unfold accept
  generalize x.handler = handler at hhandler ⊢
  generalize y.handler = handler' at hhandler ⊢
  cases hhandler with
  | none => exact .same _ (h.enter .authenticated)
  | @some side other hside =>
      simp only [Option.filter_some, hmatch.isComplete hside]
      cases Authenticator.isComplete other with
      | true => exact .same _ (h.enter .authenticated)
      | false =>
          simp only [Bool.not_false, if_true, hmatch.mechanism hside]
          exact .same _ h

theorem onRequest_received (hmatch : Matching R Q D select select') (h : Beside R Q x y)
    (request : AuthRequest) :
    Received R Q D (x.onRequest select request) (y.onRequest select' request) := by
  unfold onRequest
  rw [h.stage_eq]
  split
  · exact .same _ h
  · split
    · exact accept_received hmatch h
    · exact answer_received hmatch (h.enter .challenged) request

theorem take_received (hmatch : Matching R Q D select select') (h : Beside R Q x y)
    (frame : Frame) : Received R Q D (x.take select frame) (y.take select' frame) := by
  unfold take
  split
  · exact .same _ h
  · cases AuthRequest.parse frame.payload with
    | error fault => exact .same _ h
    | ok request => exact onRequest_received hmatch h request
  · cases ParameterStatus.parse frame.payload with
    | error fault => exact .same _ h
    | ok status => exact h.noting fun o =>
        { o with parameters := o.parameters.insert status.name status.value }
  · cases BackendKey.parse frame.payload with
    | error fault => exact .same _ h
    | ok key => exact h.noting fun o => { o with backendKey := some key }
  · rw [h.stage_eq]
    split
    · exact .same _ (h.enter .ready)
    · exact .same _ h
  · exact h.noting fun o => { o with passthrough := o.passthrough ++ [frame] }

omit [Authenticator H] [Authenticator K] in
theorem Received.settle {r : Except Fault Step × Exchange S H}
    {r' : Except Fault Step × Exchange T K} (h : Received R Q D r r') :
    Received R Q D (settle r) (settle r') := by
  cases h with
  | same result hbeside =>
      cases result with
      | error fault => exact .same _ hbeside.fail
      | ok step => exact .same _ hbeside
  | apart hreply hlooks => exact .apart hreply hlooks

/-- Exchanges that stand side by side take a message alike. -/
theorem receive_received (hmatch : Matching R Q D select select') (h : Beside R Q x y)
    (frame : Frame) : Received R Q D (x.receive select frame) (y.receive select' frame) := by
  rw [receive_eq_settle, receive_eq_settle, h.stage_eq]
  apply Received.settle
  split
  · exact take_received hmatch h frame
  · exact .same _ h

omit [Authenticator H] [Authenticator K] in
theorem startupSent_beside (h : Beside R Q x y) :
    x.startupSent.1 = y.startupSent.1 ∧ Beside R Q x.startupSent.2 y.startupSent.2 := by
  unfold startupSent
  rw [h.stage_eq]
  split
  · exact ⟨rfl, h.enter .startupSent⟩
  · exact ⟨rfl, h⟩

end Exchange

end PgFrontend
