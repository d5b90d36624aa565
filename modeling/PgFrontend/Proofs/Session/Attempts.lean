import PgFrontend.Proofs.Session.Faults
import PgFrontend.Proofs.Wire.Interruption
/-!
# Attempts to create a connection

The parts of an attempt, each described once: what comes of dialling, where preparing a session can
fail and with what fault, and what closing the link adds to its log.
-/

namespace PgFrontend

/-- Whether a fault already tells where a link could not be opened, or why not securely. -/
def Fault.isOfDialling : Fault → Bool
  | transport .. => true
  | tls _ => true
  | _ => false

/-- What closing a link can add to its log after it has begun. -/
def LinkEvent.isFarewell (e : LinkEvent) : Bool :=
  e.isTransfer || e = .shutdown

namespace Link

/-- Since one link, closing has begun, once and after everything else. -/
def ClosedOnce (l l' : Link) : Prop :=
  ∃ farewell, l'.log = l.log ++ .closing :: farewell ∧ ∀ e ∈ farewell, e.isFarewell = true

theorem ClosedOnce.sent_mono {l l' : Link} (h : l.ClosedOnce l') : l.sent <+: l'.sent := by
  obtain ⟨farewell, hlog, -⟩ := h
  refine ⟨(LinkEvent.closing :: farewell).flatMap LinkEvent.sentOctets, ?_⟩
  rw [sent, sent, hlog, List.flatMap_append]

theorem farewell_log {x : Wire Unit} (hx : Steady x) (l : Link) :
    ∃ farewell, (linkAfter ((x >>= fun _ => record .shutdown) l)).log = l.log ++ farewell ∧
      ∀ e ∈ farewell, e.isFarewell = true := by
  obtain ⟨transfers, hlog, htransfers⟩ := (hx l).moved.transferred
  have hfarewell : ∀ e ∈ transfers, e.isFarewell = true := by
    intro e he
    rw [LinkEvent.isFarewell, htransfers e he, Bool.true_or]
  cases hrun : x l with
  | ok _ l₁ =>
      rw [hrun] at hlog
      rw [bind_of_ok hrun]
      refine ⟨transfers ++ [.shutdown], ?_, ?_⟩
      · show l₁.log ++ [.shutdown] = _
        rw [show l₁.log = l.log ++ transfers from hlog, List.append_assoc]
      · exact List.forall_mem_append.mpr ⟨hfarewell, List.forall_mem_singleton.mpr rfl⟩
  | error halt l₁ =>
      rw [hrun] at hlog
      rw [bind_of_error hrun]
      exact ⟨transfers, hlog, hfarewell⟩

theorem close_closedOnce (l : Link) : l.ClosedOnce (linkAfter (close l)) := by
  let begun : Link := { l with log := l.log ++ [.closing] }
  have hclose : close l = (refuse l.closeFault >>= fun _ =>
      transmit ClientMessage.terminate.encode >>= fun _ => record .shutdown) begun := rfl
  cases hfault : l.closeFault with
  | some fault =>
      have hrefused : refuse (some fault) begun = .error (.fault fault) begun := rfl
      rw [hclose, hfault, bind_of_error hrefused]
      exact ⟨[], rfl, fun e he => nomatch he⟩
  | none =>
      have hpassed : refuse none begun = .ok () begun := rfl
      have hsteady : Steady (transmit ClientMessage.terminate.encode) :=
        .transmit (fun _ => trivial) _
      obtain ⟨farewell, hlog, hfarewell⟩ := farewell_log hsteady begun
      rw [hclose, hfault, bind_of_ok hpassed]
      refine ⟨farewell, ?_, hfarewell⟩
      rw [hlog, List.append_assoc]
      rfl

end Link

namespace Factory

open Link

variable {c : Config} {nonce : String} {d : Dial} {l : Link}

/-! ## Dialling -/

/-- Whether dialling opens a link: the connector does, and in time. -/
def Opens (c : Config) (d : Dial) : Prop :=
  d.answer = .opened ∧ d.delay.ticks ≤ c.connectTimeout.ticks

instance : DecidableRel Opens :=
  fun c d => inferInstanceAs (Decidable (d.answer = .opened ∧
    d.delay.ticks ≤ c.connectTimeout.ticks))

/-- The link once the server has been dialled. -/
def dialled (c : Config) (l : Link) : Link :=
  { l with log := l.log ++ [.dialled c.host c.port] }

theorem sent_dialled (c : Config) (l : Link) : (dialled c l).sent = l.sent :=
  (sent_noted l _).trans (List.append_nil _)

theorem consumed_dialled (c : Config) (l : Link) : (dialled c l).consumed = l.consumed :=
  (consumed_noted l _).trans (List.append_nil _)

/-- The fault that dialling ends with: the connector's own if it says what was dialled in vain, and
otherwise one that names the server of the configuration. -/
structure DialFault (c : Config) (d : Dial) (fault : Fault) : Prop where
  own : ∀ refusal, d.answer = .refused refusal → d.delay.ticks ≤ c.connectTimeout.ticks →
    refusal.isOfDialling = true → fault = refusal
  named : (∀ refusal, d.answer = .refused refusal → d.delay.ticks ≤ c.connectTimeout.ticks →
    refusal.isOfDialling = false) → ∃ reason, fault = .transport c.host c.port reason

theorem dial_eq (listening : Bool) : dial c d listening l =
    if c.connectTimeout.ticks < d.delay.ticks then .error (.fault (timeoutFault c)) (dialled c l)
    else match d.answer with
      | .opened => .ok () (dialled c l)
      | .refused fault => .error (.fault (dialFault c fault)) (dialled c l)
      | .nothing => .error (.fault (timeoutFault c)) (dialled c l)
      | .stopped =>
          .error (if listening && d.delay.ticks < c.connectTimeout.ticks then .waiting
            else .fault (timeoutFault c)) (dialled c l) := by
  have hrecord : record (.dialled c.host c.port) l = .ok () (dialled c l) := rfl
  rw [dial, bind_of_ok hrecord]
  by_cases htime : c.connectTimeout.ticks < d.delay.ticks
  · rw [if_pos htime, if_pos htime]
    rfl
  · rw [if_neg htime, if_neg htime]
    cases d.answer <;> rfl

theorem dial_opens (h : Opens c d) (listening : Bool) :
    dial c d listening l = .ok () (dialled c l) := by
  rw [dial_eq, if_neg (Nat.not_lt.mpr h.2), h.1]

theorem dialFault_isOfDialling {fault : Fault} (h : fault.isOfDialling = true) :
    dialFault c fault = fault := by
  cases fault with
  | transport host port reason => rfl
  | tls reason => rfl
  | _ => cases h

theorem dialFault_named {fault : Fault} (h : fault.isOfDialling = false) :
    dialFault c fault = .transport c.host c.port fault.message := by
  cases fault with
  | transport host port reason => cases h
  | tls reason => cases h
  | _ => rfl

theorem timeoutFault_dialFault (h : ∀ refusal, d.answer = .refused refusal →
    ¬d.delay.ticks ≤ c.connectTimeout.ticks) : DialFault c d (timeoutFault c) :=
  ⟨fun refusal hanswer htime _ => absurd htime (h refusal hanswer), fun _ => ⟨_, rfl⟩⟩

theorem dial_fails (h : ¬Opens c d) :
    ∃ fault, dial c d false l = .error (.fault fault) (dialled c l) ∧ DialFault c d fault := by
  rw [dial_eq]
  by_cases htime : c.connectTimeout.ticks < d.delay.ticks
  · rw [if_pos htime]
    exact ⟨_, rfl, timeoutFault_dialFault fun _ _ => Nat.not_le.mpr htime⟩
  · rw [if_neg htime]
    have hintime : d.delay.ticks ≤ c.connectTimeout.ticks := Nat.not_lt.mp htime
    cases hanswer : d.answer with
    | opened => exact absurd ⟨hanswer, hintime⟩ h
    | refused refusal =>
        have hthis (other : Fault) (hother : d.answer = .refused other) : other = refusal :=
          Answer.refused.inj (hother.symm.trans hanswer)
        refine ⟨_, rfl, fun other hother _ hkind => ?_, fun hnamed => ?_⟩
        · rw [hthis other hother] at hkind ⊢
          exact dialFault_isOfDialling hkind
        · exact ⟨_, dialFault_named (hnamed refusal hanswer hintime)⟩
    | nothing =>
        exact ⟨_, rfl, timeoutFault_dialFault fun _ hother => nomatch hanswer.symm.trans hother⟩
    | stopped =>
        exact ⟨_, rfl, timeoutFault_dialFault fun _ hother => nomatch hanswer.symm.trans hother⟩

/-- Whether the stop signal is heard while dialling: it comes before an answer would be late. -/
def StoppedDialling (c : Config) (d : Dial) : Prop :=
  d.answer = .stopped ∧ d.delay.ticks < c.connectTimeout.ticks

theorem dial_stopped (h : StoppedDialling c d) :
    dial c d true l = .error .waiting (dialled c l) := by
  rw [dial_eq, if_neg (Nat.not_lt.mpr (Nat.le_of_lt h.2)), h.1]
  simp [h.2]

theorem dial_unstopped (h : ¬StoppedDialling c d) : dial c d true l = dial c d false l := by
  rw [dial_eq, dial_eq]
  cases hanswer : d.answer with
  | stopped =>
      have hlate : ¬d.delay.ticks < c.connectTimeout.ticks := fun htime => h ⟨hanswer, htime⟩
      simp [hlate]
  | _ => rfl

/-! ## Preparing a session -/

theorem openSession_orderly (c : Config) (nonce : String) :
    Orderly (·.isOfSession = true) (openSession c nonce) := by
  unfold openSession
  exact Exchange.run_orderly (select_fails nonce) Handler.respond_fails _ _

theorem openSession_resumable (c : Config) (nonce : String) : Resumable (openSession c nonce) := by
  unfold openSession
  exact Exchange.run_resumable _ _ _

theorem setUp_of_ok {sql : String} {l' : Link} {result : QueryResult}
    (h : Query.run sql l = .ok result l') : setUp c sql l = .ok result l' := by
  rw [setUp, h]

theorem setUp_of_fault {sql : String} {l' : Link} {fault : Fault}
    (h : Query.run sql l = .error (.fault fault) l') :
    setUp c sql l = .error (.fault (.connect c.host c.port fault)) l' := by
  rw [setUp, h]

theorem setUp_of_waiting {sql : String} {l' : Link} (h : Query.run sql l = .error .waiting l') :
    setUp c sql l = .error .waiting l' := by
  rw [setUp, h]

theorem linkAfter_setUp (c : Config) (sql : String) (l : Link) :
    linkAfter (setUp c sql l) = linkAfter (Query.run sql l) := by
  rw [setUp]
  split
  next herror =>
    rw [herror]
    rfl
  · rfl

theorem setUp_resumable (c : Config) (sql : String) : Resumable (setUp c sql) := by
  have hrun := Query.run_resumable sql
  constructor
  · intro l
    have hconducted := hrun.steady l
    generalize hresult : Query.run sql l = r at hconducted
    cases hconducted with
    | ok hmoved =>
        rw [setUp_of_ok hresult]
        exact .ok hmoved
    | @error halt l' hmoved hhalt =>
        cases halt with
        | fault fault =>
            rw [setUp_of_fault hresult]
            exact .error hmoved (.inl trivial)
        | waiting =>
            rw [setUp_of_waiting hresult]
            exact .error hmoved hhalt
  · intro l
    have hforetells := hrun.foretells l
    generalize hresult : Query.run sql l = r at hforetells
    generalize hfree : Query.run sql l.free = r₀ at hforetells
    cases hforetells with
    | ok result l' =>
        rw [setUp_of_ok hresult, setUp_of_ok hfree]
        exact .ok result l'
    | fault fault l' =>
        rw [setUp_of_fault hresult, setUp_of_fault hfree]
        exact .fault _ l'
    | @waiting l' _ hsent =>
        rw [setUp_of_waiting hresult]
        refine .waiting ?_
        cases r₀ with
        | ok result l₁ => rwa [setUp_of_ok hfree]
        | error halt l₁ =>
            cases halt with
            | fault fault => rwa [setUp_of_fault hfree]
            | waiting => rwa [setUp_of_waiting hfree]

/-- The queries that set a session up, each with the link over which an attempt comes to run it. -/
inductive SetUpQuery (c : Config) (nonce : String) (l : Link) : String → Link → Prop
  | probe {outcome : Outcome} {l₁ : Link} (hopened : openSession c nonce l = .ok outcome l₁) :
      SetUpQuery c nonce l isolationProbe l₁
  | schema {outcome : Outcome} {l₁ l₂ : Link} {result : QueryResult} {schema : String}
      (hopened : openSession c nonce l = .ok outcome l₁)
      (hprobed : Query.run isolationProbe l₁ = .ok result l₂) (hschema : c.schema = some schema) :
      SetUpQuery c nonce l (schemaStatement schema) l₂

theorem discard_eq {α : Type} (x : Wire α) : discard x = (x >>= fun _ => pure ()) := by
  funext l
  cases hrun : x l with
  | ok a l' =>
      rw [bind_of_ok hrun]
      show EStateM.map _ x l = _
      rw [EStateM.map, hrun]
      rfl
  | error halt l' =>
      rw [bind_of_error hrun]
      show EStateM.map _ x l = _
      rw [EStateM.map, hrun]

/-- The choice of a schema, if there is one to choose. -/
def chooseSchema (c : Config) : Wire Unit :=
  match c.schema with
  | none => pure ()
  | some schema => setUp c (schemaStatement schema) >>= fun _ => pure ()

/-- The connection that an attempt hands out. -/
def handedOut (c : Config) (outcome : Outcome) (result : QueryResult) : Connection where
  codecs := .builtin
  isolation := probedLevel .builtin result
  forceBinary := c.forceBinary
  parameters := outcome.parameters
  backendKey := outcome.backendKey

theorem prepare_eq (c : Config) (nonce : String) :
    prepare c nonce = openSession c nonce >>= fun outcome =>
      setUp c isolationProbe >>= fun result =>
        chooseSchema c >>= fun _ => pure (handedOut c outcome result) := by
  unfold prepare chooseSchema
  cases c.schema with
  | none => rfl
  | some schema =>
      simp only [discard_eq]
      rfl

theorem chooseSchema_resumable (c : Config) : Resumable (chooseSchema c) := by
  unfold chooseSchema
  split
  · exact .pure ()
  · exact (setUp_resumable c _).bind fun _ => .pure ()

theorem prepare_resumable (c : Config) (nonce : String) : Resumable (prepare c nonce) := by
  rw [prepare_eq]
  exact (openSession_resumable c nonce).bind fun outcome =>
    (setUp_resumable c isolationProbe).bind fun result =>
      (chooseSchema_resumable c).bind fun _ => .pure _

theorem prepare_of_unopened {halt : Halt} {l' : Link}
    (h : openSession c nonce l = .error halt l') : prepare c nonce l = .error halt l' := by
  rw [prepare_eq, bind_of_error h]

/-- A fault of a query that sets the session up is wrapped once. -/
theorem prepare_of_query {sql : String} {l₁ l' : Link} {fault : Fault}
    (hquery : SetUpQuery c nonce l sql l₁) (h : Query.run sql l₁ = .error (.fault fault) l') :
    prepare c nonce l = .error (.fault (.connect c.host c.port fault)) l' := by
  rw [prepare_eq]
  cases hquery with
  | probe hopened => rw [bind_of_ok hopened, bind_of_error (setUp_of_fault h)]
  | schema hopened hprobed hschema =>
      have hchosen : chooseSchema c l₁ = .error (.fault (.connect c.host c.port fault)) l' := by
        rw [chooseSchema, hschema]
        exact bind_of_error (setUp_of_fault h)
      rw [bind_of_ok hopened, bind_of_ok (setUp_of_ok hprobed), bind_of_error hchosen]

/-! ## Establishing a connection -/

theorem closeWith_eq {α : Type} (fault : Fault) (l : Link) :
    (closeWith fault : Wire α) l = .error (.fault fault) (linkAfter (close l.free)) := by
  rw [closeWith, show { l with interruption := none } = l.free from rfl]
  cases close l.free <;> rfl

theorem closeWith_closedOnce {α : Type} (fault : Fault) (l : Link) :
    ∃ l', (closeWith fault : Wire α) l = .error (.fault fault) l' ∧ l.ClosedOnce l' :=
  ⟨_, closeWith_eq fault l, close_closedOnce l.free⟩

theorem establish_of_ok {connection : Connection} {l' : Link}
    (h : prepare c nonce l = .ok connection l') (listening : Bool) :
    establish c nonce listening l = .ok connection l'.free := by
  rw [establish, h]
  rfl

theorem establish_of_fault {fault : Fault} {l' : Link}
    (h : prepare c nonce l = .error (.fault fault) l') (listening : Bool) :
    establish c nonce listening l = closeWith fault l' := by
  rw [establish, h]

theorem establish_of_waiting {l' : Link} (h : prepare c nonce l = .error .waiting l')
    (listening : Bool) : establish c nonce listening l =
      if listening then closeWith .cancelled l' else .error .waiting l' := by
  rw [establish, h]

theorem create_of_opens (h : Opens c d) :
    create c nonce d l = establish c nonce false (dialled c l) :=
  bind_of_ok (dial_opens h false)

/-- What was sent while a session was prepared is the beginning of all that is sent. -/
theorem sent_prepare_establish (c : Config) (nonce : String) (l : Link) :
    (linkAfter (prepare c nonce l)).sent <+: (linkAfter (establish c nonce false l)).sent := by
  cases hprepare : prepare c nonce l with
  | ok connection l' =>
      rw [establish_of_ok hprepare]
      exact List.prefix_refl _
  | error halt l' =>
      cases halt with
      | waiting =>
          rw [establish_of_waiting hprepare]
          exact List.prefix_refl _
      | fault fault =>
          obtain ⟨l₂, hclose, hclosed⟩ := closeWith_closedOnce (α := Connection) fault l'
          rw [establish_of_fault hprepare, hclose]
          exact hclosed.sent_mono

theorem sent_prepare_create (h : Opens c d) :
    (linkAfter (prepare c nonce (dialled c l))).sent <+: (linkAfter (create c nonce d l)).sent := by
  rw [create_of_opens h]
  exact sent_prepare_establish c nonce (dialled c l)

end Factory

end PgFrontend
