import PgFrontend.Proofs.Session.Queries
import PgFrontend.Proofs.Wire.Interruption
import PgFrontend.Proofs.Wire.Violations
import PgFrontend.Session.Factory
/-!
# Faults of a session

Whatever goes wrong when a message is read or answered is a fault of the session: no reader, no
mechanism and no rule of a conversation makes up a fault that wraps another one, or one that says
that the attempt was cancelled.
-/

namespace PgFrontend

open Octets

/-! ## Mechanisms -/

theorem Credentials.handlerFor_fails (c : Credentials) (nonce : String) (request : AuthRequest) :
    FailsInSession (c.handlerFor nonce request) := by
  unfold Credentials.handlerFor
  split
  · exact .ok _
  · split
    · exact .ok _
    · exact .error rfl

theorem Password.respond_fails (p : Password) (request : AuthRequest) :
    FailsInSession (p.respond request) := by
  cases request with
  | cleartextPassword => exact .ok _
  | md5Password salt => exact .ok _
  | _ => exact .error rfl

namespace Scram

theorem ServerFirst.parse_fails (message : List Char) :
    FailsInSession (ServerFirst.parse message) := by
  unfold ServerFirst.parse
  split
  · split
    · split
      · exact .ok _
      · exact .error rfl
    · exact .error rfl
  · exact .error rfl

theorem final_fails (s : Scram) (firstBare serverFirst : List Char) :
    FailsInSession (s.final firstBare serverFirst) := by
  refine (ServerFirst.parse_fails serverFirst).bind fun asked => ?_
  dsimp only
  split
  · exact .error rfl
  · split
    · exact .error rfl
    · exact .ok _

theorem verify_fails (authMessage saltedPassword : Octets) (serverFinal : List Char) :
    FailsInSession (verify authMessage saltedPassword serverFinal) := by
  unfold verify
  dsimp only
  split
  · exact .error (by rfl)
  · split
    · split
      · exact .error rfl
      · split
        · exact .error rfl
        · exact .ok _
    · exact .error rfl

theorem respond_fails (s : Scram) (request : AuthRequest) : FailsInSession (s.respond request) := by
  unfold respond
  split
  · exact .ok _
  · split
    · exact .error rfl
    · exact (final_fails _ _ _).bind fun _ => .ok _
  · split
    · exact .error rfl
    · exact (verify_fails _ _ _).bind fun _ => .ok _
  · exact .error rfl

end Scram

theorem Handler.respond_fails (side : Handler) (request : AuthRequest) :
    FailsInSession (side.respond request) := by
  cases side with
  | password p => exact (Password.respond_fails p request).map _
  | scram s => exact (Scram.respond_fails s request).map _

/-! ## The exchange -/

namespace Exchange

variable {S H : Type} [Authenticator H] {select : S → AuthRequest → Except Fault H × S}
  (hselect : ∀ chooser request, FailsInSession (select chooser request).1)
  (hrespond : ∀ (side : H) request, FailsInSession (Authenticator.respond side request))

include hselect in
theorem choose_fails (x : Exchange S H) (request : AuthRequest) :
    FailsInSession (x.choose select request).1 := by
  unfold choose
  split
  · exact .ok _
  · have hfails := hselect x.chooser request
    split
    next fault chooser hchosen =>
      rw [hchosen] at hfails
      exact .error (hfails fault rfl)
    · exact .ok _

include hselect hrespond in
theorem onRequest_fails (x : Exchange S H) (request : AuthRequest) :
    FailsInSession (x.onRequest select request).1 := by
  unfold onRequest
  split
  · exact .error rfl
  split
  · unfold accept
    split
    · exact .error rfl
    · exact .ok _
  · have hchoose := choose_fails hselect (x.enter .challenged) request
    unfold answer
    split
    next fault y hchosen =>
      rw [hchosen] at hchoose
      exact .error (hchoose fault rfl)
    next side y _ =>
      have hanswer := hrespond side request
      split
      next fault hfault => exact .error (hanswer fault hfault)
      · exact .ok _
      · exact .ok _

include hselect hrespond in
theorem receive_fails (x : Exchange S H) (frame : Frame) :
    FailsInSession (x.receive select frame).1 := by
  have htake : FailsInSession (x.take select frame).1 := by
    unfold take
    split
    · exact .error rfl
    · have hparse := (AuthRequest.parse_fails frame.payload).inSession
      split
      next fault hfault => exact .error (hparse fault hfault)
      · exact onRequest_fails hselect hrespond x _
    · have hparse := (ParameterStatus.parse_fails frame.payload).inSession
      split
      next fault hfault => exact .error (hparse fault hfault)
      · exact .ok _
    · have hparse := (BackendKey.parse_fails frame.payload).inSession
      split
      next fault hfault => exact .error (hparse fault hfault)
      · exact .ok _
    · split
      · exact .ok _
      · exact .error rfl
    · exact .ok _
  unfold receive
  by_cases hturn : isListening x.stage
  · rw [if_pos hturn]
    generalize x.take select frame = taken at htake
    obtain ⟨fault | step, next⟩ := taken
    · exact .error (htake fault rfl)
    · exact .ok step
  · rw [if_neg hturn]
    exact .error rfl

include hselect hrespond in
theorem rule_fails (x : Exchange S H) (frame : Frame) (fault : Fault)
    (h : rule select x frame = .fail fault) : fault.isOfSession = true := by
  have hreceive := receive_fails hselect hrespond x frame
  unfold rule at h
  split at h
  · cases h
  · cases h
  · cases h
  next found _ hfound =>
    rw [hfound] at hreceive
    cases h
    exact hreceive fault rfl

end Exchange

theorem Factory.select_fails (nonce : String) (c : Credentials) (request : AuthRequest) :
    FailsInSession (Factory.select nonce c request).1 :=
  c.handlerFor_fails nonce request

/-! ## Queries -/

theorem Frame.report_of_report? {f : Frame} {fault : Fault} (h : f.report? = some fault) :
    ∃ report, fault = .server report := by
  unfold Frame.report? at h
  split at h
  · cases h
    exact ⟨_, rfl⟩
  · cases h

namespace Query

theorem Progress.take_fails (p : Progress) (frame : Frame) :
    FailsAs Fault.isProtocol (p.take frame) := by
  unfold Progress.take
  split
  · exact (Column.parseAll_fails _).map _
  · refine (DataRow.parse_fails _).bind fun values => ?_
    unfold Progress.addRow
    split
    · exact .ok _
    · exact .error rfl
  · exact (commandTag_fails _).map _
  · exact .ok _
  · exact .ok _

/-- A frame that is taken in changes what was noted as the error only if it is a report, and then
only if none was noted before. -/
theorem Progress.error_take {p next : Progress} {frame : Frame} (h : p.take frame = .ok next) :
    next.error = (p.error <|> frame.report?) := by
  have hunreported (letter : Char) (hkind : frame.kind = letter) (hother : letter ≠ 'E') :
      p.error = (p.error <|> frame.report?) := by
    rw [Frame.report?, if_neg (hkind ▸ hother)]
    cases p.error <;> rfl
  unfold Progress.take at h
  split at h
  next hletter =>
    obtain ⟨columns, -, rfl⟩ := map_eq_ok_iff.mp h
    exact hunreported 'T' hletter (by decide)
  next hletter =>
    obtain ⟨values, -, hadded⟩ := bind_eq_ok_iff.mp h
    unfold Progress.addRow at hadded
    split at hadded
    · cases hadded
      exact hunreported 'D' hletter (by decide)
    · cases hadded
  next hletter =>
    obtain ⟨tag, -, rfl⟩ := map_eq_ok_iff.mp h
    exact hunreported 'C' hletter (by decide)
  next hletter =>
    have hkind : frame.kind = 'E' := hletter
    cases h
    rw [Frame.report?, if_pos hkind]
  next hother =>
    cases h
    exact hunreported frame.kind rfl hother

/-- The turns of an answer: what each frame does to what was noted, and how the answer ends. -/
inductive Turns (p : Progress) (f : Frame) : Turn Progress QueryResult → Prop
  | wait {next : Progress} (hunready : f.kind ≠ 'Z')
      (herror : next.error = (p.error <|> f.report?)) : Turns p f (.wait next)
  | malformed {fault : Fault} (hunready : f.kind ≠ 'Z') (hfault : fault.isProtocol = true) :
      Turns p f (.fail fault)
  | reported {fault : Fault} (hready : f.kind = 'Z') (hnoted : p.error = some fault) :
      Turns p f (.fail fault)
  | done (hready : f.kind = 'Z') (hnoted : p.error = none) : Turns p f (.done p.result)

theorem turns_of_rule {p : Progress} {f : Frame} {turn : Turn Progress QueryResult}
    (h : rule p f = turn) : Turns p f turn := by
  subst h
  unfold rule
  by_cases hready : f.tag = readyTag
  · have hkind := (tag_eq_readyTag_iff f).mp hready
    rw [if_pos hready]
    split
    next hnoted => exact .reported hkind hnoted
    next hnoted => exact .done hkind hnoted
  · have hkind := fun hkind => hready ((tag_eq_readyTag_iff f).mpr hkind)
    rw [if_neg hready]
    split
    next htaken => exact .wait hkind (Progress.error_take htaken)
    next hfound => exact .malformed hkind (Progress.take_fails p f _ hfound)

/-- Whether what was noted as the server's error is one. -/
def Progress.NotesReport (p : Progress) : Prop :=
  ∀ fault ∈ p.error, ∃ report, fault = .server report

theorem rule_failsWith :
    FailsWith (·.isOfSession = true) Progress.NotesReport rule := by
  constructor
  · intro p f next hp h
    cases turns_of_rule h with
    | wait hunready herror =>
        intro fault hfault
        rw [herror] at hfault
        cases hnoted : p.error with
        | some noted =>
            rw [hnoted] at hfault
            exact hp fault (hnoted.trans hfault)
        | none =>
            rw [hnoted] at hfault
            exact Frame.report_of_report? hfault
  · intro p f reply next hp h
    cases turns_of_rule h
  · intro p f fault hp h
    cases turns_of_rule h with
    | malformed hunready hfault => exact Fault.isOfSession_of_isProtocol hfault
    | reported hready hnoted =>
        obtain ⟨report, rfl⟩ := hp fault hnoted
        rfl

theorem run_orderly (sql : String) : Link.Orderly (·.isOfSession = true) (run sql) := by
  have hconverse : Link.Orderly (·.isOfSession = true) (converse rule {}) :=
    converse_orderly (fun _ => rfl) (fun _ => rfl) rule_failsWith (fun _ hnone => nomatch hnone)
  exact (Link.Orderly.transmit (fun _ => rfl) _).bind fun _ => hconverse

theorem run_resumable (sql : String) : Link.Resumable (run sql) :=
  (Link.Resumable.transmit _).bind fun _ => converse_resumable rule _

end Query

theorem Exchange.run_resumable {S H : Type} [Authenticator H]
    (select : S → AuthRequest → Except Fault H × S) (x : Exchange S H)
    (startup : StartupMessage) : Link.Resumable (x.run select startup) := by
  refine (Link.Resumable.transmit _).bind fun _ => ?_
  by_cases hstage : x.stage = .init
  · rw [startupSent, if_pos hstage]
    exact converse_resumable (rule select) _
  · rw [startupSent, if_neg hstage]
    exact .throw _

theorem Exchange.run_orderly {S H : Type} [Authenticator H]
    {select : S → AuthRequest → Except Fault H × S}
    (hselect : ∀ chooser request, FailsInSession (select chooser request).1)
    (hrespond : ∀ (side : H) request, FailsInSession (Authenticator.respond side request))
    (x : Exchange S H) (startup : StartupMessage) :
    Link.Orderly (·.isOfSession = true) (x.run select startup) := by
  refine (Link.Orderly.transmit (fun _ => rfl) _).bind fun _ => ?_
  have hrule : FailsWith (·.isOfSession = true) (fun _ => True) (rule select) :=
    ⟨fun _ _ _ _ _ => trivial, fun _ _ _ _ _ _ => trivial,
      fun y f fault _ => rule_fails hselect hrespond y f fault⟩
  by_cases hstage : x.stage = .init
  · rw [startupSent, if_pos hstage]
    exact converse_orderly (fun _ => rfl) (fun _ => rfl) hrule trivial
  · rw [startupSent, if_neg hstage]
    exact Link.Orderly.throw rfl

end PgFrontend
