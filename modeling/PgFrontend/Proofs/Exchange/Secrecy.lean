import PgFrontend.Proofs.Exchange.Authentication
/-!
# When the password first matters

Two clients that differ only in the password are told apart by no reply, no fault and no stage until
one of them sends something that is made of the password.  Then the other does so too, in a message
of the same kind.

Both clients run side by side: the sides of one are those of the other with the password replaced,
and such sides answer alike, or both answer with a proof.
-/

namespace PgFrontend

/-- The password, or what stands for it, goes into these messages only. -/
def ClientMessage.isProof : ClientMessage → Bool
  | .password _ => true
  | .saslResponse _ => true
  | _ => false

/-- Two messages that prove a password in the same way. -/
inductive ClientMessage.ProvesAlike : ClientMessage → ClientMessage → Prop
  | password (data data' : Octets) : ProvesAlike (.password data) (.password data')
  | saslResponse (data data' : Octets) : ProvesAlike (.saslResponse data) (.saslResponse data')

open ClientMessage (ProvesAlike)

theorem ClientMessage.ProvesAlike.isProof {reply reply' : ClientMessage}
    (h : ProvesAlike reply reply') : reply.isProof = true := by
  cases h <;> rfl

theorem ClientMessage.provesAlike_self {reply : ClientMessage} (h : reply.isProof = true) :
    ProvesAlike reply reply := by
  cases reply with
  | password data => exact .password data data
  | saslResponse data => exact .saslResponse data data
  | saslInitialResponse => cases h
  | query => cases h
  | terminate => cases h

/-! ## Sides with another password -/

def Password.withPassword (p : Password) (password : String) : Password :=
  { p with password }

def Scram.withPassword (s : Scram) (password : String) : Scram :=
  { s with password }

def Handler.withPassword (password : String) : Handler → Handler
  | .password side => .password (side.withPassword password)
  | .scram side => .scram (side.withPassword password)

def Credentials.withPassword (c : Credentials) (password : String) : Credentials :=
  { c with password }

open Exchange (AnswerAlike)

theorem Password.respond_withPassword (p : Password) (password : String) (request : AuthRequest) :
    AnswerAlike (fun side other => other = side.withPassword password) ProvesAlike
      (p.respond request) ((p.withPassword password).respond request) := by
  cases request with
  | cleartextPassword => exact .apart _ _ (.password _ _)
  | md5Password salt => exact .apart _ _ (.password _ _)
  | ok => exact .refused _
  | sasl => exact .refused _
  | saslContinue => exact .refused _
  | saslFinal => exact .refused _
  | unsupported => exact .refused _

namespace Scram

open Octets

/-- What the client checks in the server's first message before it proves anything: neither the
password nor the user has a part in it. -/
def checkedFirst (nonce : String) (serverFirst : List Char) :
    Except Fault (ServerFirst × Octets) := do
  let asked ← ServerFirst.parse serverFirst
  if !nonce.toList.isPrefixOf asked.nonce then
    throw (.auth .foreignNonce)
  match Base64.decode (ofChars asked.salt) with
  | .error flaw => throw (.auth (.badSalt flaw))
  | .ok salt => return (asked, salt)

theorem final_eq (s : Scram) (firstBare serverFirst : List Char) :
    s.final firstBare serverFirst =
      (checkedFirst s.nonce serverFirst).map fun (asked, salt) =>
        s.finalReply firstBare serverFirst asked salt := by
  unfold final checkedFirst
  cases ServerFirst.parse serverFirst with
  | error fault => rfl
  | ok asked =>
      simp only [bind, Except.bind]
      split
      · rfl
      · cases Base64.decode (ofChars asked.salt) with
        | error flaw => rfl
        | ok salt => rfl

theorem respond_withPassword (s : Scram) (password : String) (request : AuthRequest) :
    AnswerAlike (fun side other => other = side.withPassword password) ProvesAlike
      (s.respond request) ((s.withPassword password).respond request) := by
  obtain ⟨user, secret, nonce, state⟩ := s
  unfold respond withPassword
  dsimp only
  split
  · exact .same _ rfl
  next data firstBare =>
    cases Utf8.decode data with
    | error flaw => exact .refused _
    | ok text =>
        dsimp only
        rw [final_eq, final_eq]
        cases checkedFirst nonce text.toList with
        | error fault => exact .refused fault
        | ok found => exact .apart _ _ (.saslResponse _ _)
  next data signed salted =>
    cases Utf8.decode data with
    | error flaw => exact .refused _
    | ok text =>
        dsimp only
        cases verify signed salted text.toList with
        | error fault => exact .refused fault
        | ok done => exact .same _ rfl
  · exact .refused _

end Scram

theorem Handler.respond_withPassword (side : Handler) (password : String) (request : AuthRequest) :
    AnswerAlike (fun side other => other = side.withPassword password) ProvesAlike
      (side.respond request) ((side.withPassword password).respond request) := by
  cases side with
  | password side =>
      apply (side.respond_withPassword password request).map
      exact congrArg Handler.password
  | scram side =>
      apply (side.respond_withPassword password request).map
      exact congrArg Handler.scram

theorem Credentials.handlerFor_withPassword (c : Credentials) (password nonce : String)
    (request : AuthRequest) :
    FailAlike (fun side other => other = side.withPassword password)
      (c.handlerFor nonce request) ((c.withPassword password).handlerFor nonce request) := by
  unfold handlerFor
  split
  · exact .ok rfl
  · split
    · exact .ok rfl
    · exact .error _

namespace Exchange

/-- The factory chooses, and what it chooses answers, as with another password. -/
theorem matching_withPassword (password nonce : String) :
    Matching (fun c c' => c' = Credentials.withPassword c password)
      (fun side other => other = Handler.withPassword password side) ProvesAlike
      (Factory.select nonce) (Factory.select nonce) where
  select := by
    rintro c _ rfl request
    exact ⟨c.handlerFor_withPassword password nonce request, rfl⟩
  mechanism := by
    rintro side _ rfl
    cases side <;> rfl
  isComplete := by
    rintro side _ rfl
    cases side <;> rfl
  respond := by
    rintro side _ rfl request
    exact side.respond_withPassword password request

/-! ## Side by side until the proof -/

/-- Whether a call is answered with a proof of the password. -/
def proves (result : Except Fault (Option Step)) : Bool :=
  (reply? result).any ClientMessage.isProof

theorem BothSend.proves {result result' : Except Fault (Option Step)}
    (h : BothSend ProvesAlike result result') : proves result = true := by
  obtain ⟨hreply⟩ := h
  exact hreply.isProof

theorem bothSend_self {result : Except Fault (Option Step)} (h : proves result = true) :
    BothSend ProvesAlike result result := by
  unfold proves reply? at h
  split at h
  · exact ⟨ClientMessage.provesAlike_self h⟩
  · cases h

variable {S T H K : Type} [Authenticator H] [Authenticator K] {R : S → T → Prop} {Q : H → K → Prop}
  {select : S → AuthRequest → Except Fault H × S} {select' : T → AuthRequest → Except Fault K × T}
  {x : Exchange S H} {y : Exchange T K}

theorem call_untilProof (hmatch : Matching R Q ProvesAlike select select') (h : Beside R Q x y)
    (c : Call) :
    (BothSend ProvesAlike (x.call select c).1 (y.call select' c).1 ∧
        LooksLike (x.call select c).2 (y.call select' c).2) ∨
      proves (x.call select c).1 = false ∧ (x.call select c).1 = (y.call select' c).1 ∧
        Beside R Q (x.call select c).2 (y.call select' c).2 := by
  rcases call_beside hmatch h c with ⟨hresult, hnext⟩ | ⟨hsend, hlooks⟩
  · by_cases hproves : proves (x.call select c).1 = true
    · rw [← hresult]
      exact .inl ⟨bothSend_self hproves, hnext.toLooksLike⟩
    · exact .inr ⟨eq_false_of_ne_true hproves, hresult, hnext⟩
  · exact .inl ⟨hsend, hlooks⟩

/-- Two exchanges whose sides answer alike but for proofs run alike up to the first proof, which
then is in both. -/
theorem perform_untilProof (hmatch : Matching R Q ProvesAlike select select') (h : Beside R Q x y)
    (calls : List Call) :
    let asked := (x.perform select calls).1.findIdx proves
    (x.perform select calls).1.take asked = (y.perform select' calls).1.take asked ∧
      (∀ n ≤ asked + 1,
        LooksLike (x.perform select (calls.take n)).2 (y.perform select' (calls.take n)).2) ∧
      Option.Rel (BothSend ProvesAlike) (x.perform select calls).1[asked]?
        (y.perform select' calls).1[asked]? := by
  induction calls generalizing x y with
  | nil =>
      refine ⟨rfl, fun n _ => ?_, .none⟩
      rw [List.take_nil]
      exact h.toLooksLike
  | cons c calls ih =>
      rcases call_untilProof hmatch h c with ⟨hsend, hlooks⟩ | ⟨hproves, hresult, hnext⟩
      · have hasked : (x.perform select (c :: calls)).1.findIdx proves = 0 := by
          simp only [perform, List.findIdx_cons, hsend.proves, cond_true]
        rw [hasked]
        refine ⟨rfl, fun n hn => ?_, .some hsend⟩
        obtain rfl | rfl : n = 0 ∨ n = 1 := by omega
        · exact h.toLooksLike
        · exact hlooks
      · obtain ⟨hresults, hlooks, hproof⟩ := ih hnext
        have hasked : (x.perform select (c :: calls)).1.findIdx proves =
            ((x.call select c).2.perform select calls).1.findIdx proves + 1 := by
          simp only [perform, List.findIdx_cons, hproves, cond_false]
        rw [hasked]
        refine ⟨?_, fun n hn => ?_, hproof⟩
        · simp only [perform, List.take_succ_cons, hresult, hresults]
        · cases n with
          | zero => exact h.toLooksLike
          | succ n => exact hlooks n (Nat.le_of_succ_le_succ hn)

/-- Two clients that differ in the password only are alike in all that they answer until one of them
proves its password.  Then both do, and in the same way, and up to there, the proof included, all
that can be seen of their exchanges is the same. -/
theorem password_unseen_until_asked (user password password' nonce : String) (calls : List Call) :
    let run := perform (Factory.select nonce) (start (Credentials.mk user password))
    let run' := perform (Factory.select nonce) (start (Credentials.mk user password'))
    let asked := (run calls).1.findIdx proves
    (run calls).1.take asked = (run' calls).1.take asked ∧
      (∀ n ≤ asked + 1, LooksLike (run (calls.take n)).2 (run' (calls.take n)).2) ∧
      Option.Rel (BothSend ProvesAlike) (run calls).1[asked]? (run' calls).1[asked]? := by
  intro run run' asked
  apply perform_untilProof (matching_withPassword password' nonce)
  exact ⟨⟨rfl, rfl, rfl⟩, rfl, .none⟩

/-- A client that is asked for the password in clear text gives it in its second call. -/
example : (perform (Factory.select "") (start (Credentials.mk "ann" "pencil"))
    [.startupSent, .message ⟨82, [0, 0, 0, 3]⟩]).1.findIdx proves = 1 := by
  decide

end Exchange

end PgFrontend
