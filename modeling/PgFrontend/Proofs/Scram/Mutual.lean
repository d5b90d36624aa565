import Mathlib.Algebra.Group.Nat.Defs
import PgFrontend.Proofs.Auth.Request
import PgFrontend.Proofs.Exchange.Authentication
import PgFrontend.Proofs.Exchange.Progress
import PgFrontend.Proofs.Scram.Server
/-!
# Mutual authentication

Client and server convince each other by SCRAM, and only by it.  An honest server takes the client's
proof, and the client takes the signature that it answers with; and whoever lets the client in has
shown the signature that only a server can make which knows the salted password.
-/

namespace PgFrontend.Exchange

open Octets

/-- A SCRAM side answers for the exchange, and the client is not let in yet. -/
structure AnsweredBy (x : Exchange Credentials Handler) (side : Scram) : Prop where
  asking : x.stage.isAuthenticating = true
  handler_eq : x.handler = some (.scram side)
  mechanism_eq : x.outcome.mechanism = some Scram.mechanism

variable {c : Credentials} {nonce : String} {x : Exchange Credentials Handler} {frame : Frame}
  {request : AuthRequest}

def asking (code : Nat) (data : Octets) : Frame :=
  ⟨82, bigEndian 4 code ++ data⟩

theorem request?_saslContinue (data : Octets) :
    (asking 11 data).request? = some (.ok (.saslContinue data)) :=
  congrArg some (AuthRequest.Held.saslContinue data).parse_eq

theorem request?_saslFinal (data : Octets) :
    (asking 12 data).request? = some (.ok (.saslFinal data)) :=
  congrArg some (AuthRequest.Held.saslFinal data).parse_eq

theorem receive_offer (nonce : String) {offer : List String} (hstage : x.stage.isAuthenticating = true)
    (hchooser : x.chooser = c) (hhandler : x.handler = none) (hoffer : Scram.mechanism ∈ offer)
    (hrequest : frame.request? = some (.ok (.sasl offer))) :
    (x.receive (Factory.select nonce) frame).1 = .ok (.send (c.first nonce)) ∧
      (x.receive (Factory.select nonce) frame).2.AnsweredBy
        (c.scram nonce (.firstSent (c.firstBare nonce))) := by
  have hselect : Factory.select nonce (x.enter .challenged).chooser (.sasl offer) =
      (.ok (.scram (c.scram nonce .initial)), c) := by
    rw [Factory.select, enter_chooser, hchooser, Credentials.handlerFor_offer hoffer]
  have hnone : (x.enter .challenged).handler = none := hhandler
  rw [receive_asked hstage hrequest rfl, answer_replied (choose_of_none hnone hselect) Credentials.respond_offer,
    settle_ok]
  exact ⟨rfl, rfl, rfl, rfl⟩

namespace AnsweredBy

variable {side next : Scram}
  (select : Credentials → AuthRequest → Except Fault Handler × Credentials)

omit select in
theorem enter_handler_eq (h : x.AnsweredBy side) (s : Stage) :
    (x.enter s).handler = some (.scram side) :=
  h.handler_eq

theorem replied {reply : ClientMessage} (h : x.AnsweredBy side)
    (hrequest : frame.request? = some (.ok request)) (hmore : request.isOk = false)
    (hrespond : side.respond request = .ok (some reply, next)) :
    (x.receive select frame).1 = .ok (.send reply) ∧ (x.receive select frame).2.AnsweredBy next := by
  rw [receive_asked h.asking hrequest hmore,
    answer_replied (choose_of_some (h.enter_handler_eq _)) (Handler.respond_scram hrespond), settle_ok]
  exact ⟨rfl, rfl, rfl, h.mechanism_eq⟩

theorem silent (h : x.AnsweredBy side) (hrequest : frame.request? = some (.ok request))
    (hmore : request.isOk = false) (hrespond : side.respond request = .ok (none, next)) :
    (x.receive select frame).1 = .ok .wait ∧ (x.receive select frame).2.AnsweredBy next := by
  rw [receive_asked h.asking hrequest hmore,
    answer_silent (choose_of_some (h.enter_handler_eq _)) (Handler.respond_scram hrespond), settle_ok]
  exact ⟨rfl, rfl, rfl, h.mechanism_eq⟩

theorem admitted (h : x.AnsweredBy (c.scram nonce .verified))
    (hrequest : frame.request? = some (.ok .ok)) :
    x.receive select frame = (.ok .wait, x.enter .authenticated) :=
  receive_admitting h.asking hrequest h.handler_eq rfl

end AnsweredBy

def offering : Frame :=
  asking 10 (ofString "SCRAM-SHA-256" ++ [0, 0])

theorem request?_offering : offering.request? = some (.ok (.sasl ["SCRAM-SHA-256"])) := by
  decide +kernel

theorem request?_ok : (asking 0 []).request? = some (.ok .ok) :=
  rfl

section

open Scram

variable {server : Server} {suffix : String} {salt : Octets} {iterations : Nat}

theorem perform_honest (c : Credentials) (nonce : String) (server : Server)
    (x : Exchange Credentials Handler) {offer : List String} {offering challenging confirming : Frame}
    (hserver : server = .ofPassword c.password salt iterations suffix)
    (hnonce : ',' ∉ nonce.toList) (hsuffix : ',' ∉ server.suffix)
    (hpos : 0 < server.iterations) (hlt : server.iterations < UInt32.size)
    (hstage : x.stage.isAuthenticating = true) (hchooser : x.chooser = c)
    (hhandler : x.handler = none) (hoffer : mechanism ∈ offer)
    (hoffering : offering.request? = some (.ok (.sasl offer)))
    (hchallenging : challenging.request? =
      some (.ok (.saslContinue (ofChars (server.sent c nonce).serverFirst))))
    (hconfirming : confirming.request? = some (.ok (.saslFinal (server.confirmation c nonce)))) :
    let run := perform (Factory.select nonce) x
      [.message offering, .message challenging, .message confirming]
    run.1 = [.ok (some (.send (c.first nonce))),
        .ok (some (.send (.saslResponse (server.reply c nonce)))), .ok (some .wait)] ∧
      run.2.AnsweredBy (c.scram nonce .verified) := by
  have hfirst := Server.firstTaken_first c hnonce hsuffix hpos hlt
  obtain ⟨text, hlast⟩ := Server.lastTaken_confirmation nonce hserver
  have hreplied : (c.scram nonce (.firstSent (c.firstBare nonce))).respond _ = _ :=
    respond_firstSent_eq_ok_iff.mpr ⟨_, _, _, _, rfl, hfirst, rfl, rfl⟩
  have hverified : (c.scram nonce _).respond _ = .ok (none, c.scram nonce .verified) :=
    respond_finalSent_eq_ok_iff.mpr ⟨_, _, rfl, hlast, rfl, rfl⟩
  obtain ⟨hsent₁, hafter₁⟩ :=
    receive_offer nonce hstage hchooser hhandler hoffer hoffering
  obtain ⟨hsent₂, hafter₂⟩ :=
    hafter₁.replied (Factory.select nonce) hchallenging rfl hreplied
  obtain ⟨hsent₃, hafter₃⟩ :=
    hafter₂.silent (Factory.select nonce) hconfirming rfl hverified
  refine ⟨?_, hafter₃⟩
  simp only [perform, call, hsent₁, hsent₂, hsent₃]
  rfl

def honest (server : Server) (c : Credentials) (nonce : String) : List Frame :=
  [offering, asking 11 (ofChars (server.sent c nonce).serverFirst),
    asking 12 (server.confirmation c nonce), asking 0 []]

theorem opened_honest (c : Credentials) (nonce suffix : String) (salt : Octets) (iterations : Nat)
    (hnonce : ',' ∉ nonce.toList) (hsuffix : ',' ∉ suffix.toList) (hpos : 0 < iterations)
    (hlt : iterations < UInt32.size) :
    let server := Server.ofPassword c.password salt iterations suffix
    (opened c nonce (honest server c nonce)).2.outcome.mechanism = some mechanism ∧
      .authenticated ∈ (opened c nonce (honest server c nonce)).2.history := by
  intro server
  let asked : List Call := [.message offering,
    .message (asking 11 (ofChars (server.sent c nonce).serverFirst)),
    .message (asking 12 (server.confirmation c nonce))]
  let before := (perform (Factory.select nonce) ((start c).enter .startupSent) asked).2
  have hanswered : before.AnsweredBy (c.scram nonce .verified) :=
    (perform_honest c nonce server ((start c).enter .startupSent) rfl hnonce hsuffix hpos hlt
      rfl rfl rfl (show mechanism ∈ ["SCRAM-SHA-256"] by decide) request?_offering
      (request?_saslContinue _) (request?_saslFinal _)).2
  have hopened : (opened c nonce (honest server c nonce)).2 =
      (before.receive (Factory.select nonce) (asking 0 [])).2 := rfl
  rw [hopened, hanswered.admitted (Factory.select nonce) request?_ok]
  exact ⟨hanswered.mechanism_eq, List.mem_append_right _ (List.mem_singleton_self _)⟩

/-! ## The two directions -/

/-- **An honest server takes the client's proof, and the client its confirmation.**  The server
completes the client's nonce and may ask for any salt and any number of iterations; it reads the
proof off the message that it gets.  After its confirmation the client may be let in. -/
theorem scram_completes_with_honest_server (c : Credentials) (nonce suffix : String)
    (salt : Octets) (iterations : Nat) (x : Exchange Credentials Handler)
    (hnonce : ',' ∉ nonce.toList) (hsuffix : ',' ∉ suffix.toList)
    (hpos : 1 ≤ iterations) (hword : iterations ≤ 2 ^ 32 - 1)
    (hstage : x.stage.isAuthenticating = true) (hchooser : x.chooser = c)
    (hhandler : x.handler = none) :
    let server := Server.ofPassword c.password salt iterations suffix
    let completed := nonce.toList ++ suffix.toList
    ∃ first sent proof last confirmation,
      c.first nonce = .saslInitialResponse mechanism first ∧
      server.challenge first = some sent ∧
      sent.serverFirst = "r=".toList ++ completed ++ ",s=".toList ++ (Base64.text salt).toList ++
        ",i=".toList ++ (toString iterations).toList ∧
      last = ofChars ("c=biws,r=".toList ++ completed ++ ",p=".toList) ++ Base64.encode proof ∧
      server.confirm sent last = some confirmation ∧
      confirmation = ofString "v=" ++ Base64.encode (Hmac.sha256 server.serverKey
        (Server.signed sent "c=biws".toList ("r=".toList ++ completed))) ∧
      ∀ (offer : List String) (offering challenging confirming admitting : Frame),
        mechanism ∈ offer →
        offering.request? = some (.ok (.sasl offer)) →
        challenging.request? = some (.ok (.saslContinue (ofChars sent.serverFirst))) →
        confirming.request? = some (.ok (.saslFinal confirmation)) →
        admitting.request? = some (.ok .ok) →
        let run := perform (Factory.select nonce) x
          [.message offering, .message challenging, .message confirming]
        let admitted := run.2.receive (Factory.select nonce) admitting
        run.1 = [.ok (some (.send (.saslInitialResponse mechanism first))),
            .ok (some (.send (.saslResponse last))), .ok (some .wait)] ∧
          (∃ side : Scram, run.2.handler = some (.scram side) ∧
            Authenticator.isComplete side = true) ∧
          admitted.1 = .ok .wait ∧ admitted.2.stage = .authenticated := by
  intro server completed
  have hlt : server.iterations < UInt32.size := by
    show iterations < 4294967296
    omega
  refine ⟨_, server.sent c nonce, _, server.reply c nonce, server.confirmation c nonce, rfl,
    Server.challenge_first hnonce, rfl, rfl, Server.confirm_final rfl hnonce hsuffix, ?_, ?_⟩
  · have hsigned := Server.signed_sent c nonce server
    rw [Server.confirmation, ← hsigned]
    rfl
  · intro offer offering challenging confirming admitting hoffer hoffering hchallenging hconfirming
      hadmitting run admitted
    obtain ⟨hresults, hanswered⟩ := perform_honest c nonce server x rfl hnonce hsuffix hpos hlt
      hstage hchooser hhandler hoffer hoffering hchallenging hconfirming
    have hadmitted : admitted = (.ok .wait, run.2.enter .authenticated) :=
      hanswered.admitted (Factory.select nonce) hadmitting
    refine ⟨hresults, ⟨_, hanswered.handler_eq, rfl⟩, ?_, ?_⟩
    · rw [hadmitted]
    · rw [hadmitted]
      rfl

theorem scram_completes_for_pencil :
    let c : Credentials := ⟨"user", "pencil"⟩
    ∃ challenge confirmation,
      let run := perform (Factory.select "rOprNGfwEbeRWgbNEkqO") ((start c).enter .startupSent)
        [.message offering, .message (asking 11 challenge), .message (asking 12 confirmation)]
      let admitted := run.2.receive (Factory.select "rOprNGfwEbeRWgbNEkqO") (asking 0 [])
      admitted.1 = .ok .wait ∧ admitted.2.stage = .authenticated := by
  intro c
  obtain ⟨first, sent, proof, last, confirmation, -, -, -, -, -, -, hrun⟩ :=
    scram_completes_with_honest_server c "rOprNGfwEbeRWgbNEkqO" "hvYDpWUa2RaT" [0x5b, 0x6d, 0x99]
      4096 ((start c).enter .startupSent) (by simp) (by simp) (by decide) (by decide) rfl rfl rfl
  obtain ⟨-, -, hresult, hstage⟩ := hrun ["SCRAM-SHA-256"] offering (asking 11 _) (asking 12 _)
    (asking 0 []) (by decide) request?_offering (request?_saslContinue _) (request?_saslFinal _)
    request?_ok
  exact ⟨_, _, hresult, hstage⟩

/-- **Only a server that has proved itself lets the client in by SCRAM**, whatever messages come in
whatever order.  Up to the one that lets the client in there were exactly four requests: an offer of
the mechanism, a first message that continues the client's nonce, a last message with the server's
signature over what was exchanged, and the word that the client is let in. -/
theorem scram_admits_only_proven_server (c : Credentials) (nonce : String) (frames : List Frame)
    (hmechanism : (opened c nonce frames).2.outcome.mechanism = some mechanism)
    (hadmitted : .authenticated ∈ (opened c nonce frames).2.history ∨
      .ready ∈ (opened c nonce frames).2.history) :
    ∃ before frame after offer first text asked salt last lastText,
      frames = before ++ frame :: after ∧
      .authenticated ∉ (opened c nonce before).2.history ∧
      .authenticated ∈ (opened c nonce (before ++ [frame])).2.history ∧
      heard (before ++ [frame]) =
        [.ok (.sasl offer), .ok (.saslContinue first), .ok (.saslFinal last), .ok .ok] ∧
      said (opened c nonce (before ++ [frame])).1 =
        [c.first nonce, c.final nonce text asked salt] ∧
      mechanism ∈ offer ∧ FirstTaken nonce first text asked salt ∧
      LastTaken (c.salted asked salt) (c.signed nonce text asked) last lastText := by
  have hentered : .authenticated ∈ (opened c nonce frames).2.history := by
    rcases hadmitted with hadmitted | hready
    · exact hadmitted
    · exact (recorded_opened c nonce frames).authenticated_mem hready
  obtain ⟨before, frame, after, hframes, hadmission, hsettled⟩ := exists_admission hentered
  have htracks := tracks_opened c nonce before
  obtain ⟨offer, first, text, asked, salt, last, lastText, hheard, hsaid, hoffer, hfirst, hlast⟩ :=
    htracks.proven hadmission.asking (hsettled ▸ hmechanism) hadmission.complete
  refine ⟨before, frame, after, offer, first, text, asked, salt, last, lastText, hframes,
    hadmission.not_before, hadmission.entered, ?_, ?_, hoffer, hfirst, hlast⟩
  · rw [hadmission.heard_eq, hheard]
    rfl
  · rw [hadmission.said_eq, hsaid]

theorem scram_admits_only_proven_server_pencil :
    let c : Credentials := ⟨"user", "pencil"⟩
    ∃ frames, (opened c "rOprNGfwEbeRWgbNEkqO" frames).2.outcome.mechanism = some mechanism ∧
      .authenticated ∈ (opened c "rOprNGfwEbeRWgbNEkqO" frames).2.history ∧
      ∃ before frame after offer first last, frames = before ++ frame :: after ∧
        heard (before ++ [frame]) =
          [.ok (.sasl offer), .ok (.saslContinue first), .ok (.saslFinal last), .ok .ok] := by
  intro c
  obtain ⟨hmechanism, hadmitted⟩ := opened_honest c "rOprNGfwEbeRWgbNEkqO" "hvYDpWUa2RaT"
    [0x5b, 0x6d, 0x99] 4096 (by simp) (by simp) (by decide) (by decide)
  obtain ⟨before, frame, after, offer, first, -, -, -, last, -, hframes, -, -, hheard, -⟩ :=
    scram_admits_only_proven_server c "rOprNGfwEbeRWgbNEkqO" _ hmechanism (.inl hadmitted)
  exact ⟨_, hmechanism, hadmitted, before, frame, after, offer, first, last, hframes, hheard⟩

end

end PgFrontend.Exchange
