import PgFrontend.Auth.Credentials
import PgFrontend.Proofs.Fault
import PgFrontend.Proofs.Scram.Messages
/-!
# The dialogue of a SCRAM client

What a client has heard and said by the time it stands where it does.  A side that was chosen by
`Credentials.handlerFor` answers only the request that belongs to its stage, so the side alone tells
the whole dialogue: `Dialogue.start` and `Dialogue.step` say how one request adds to it.
-/

namespace PgFrontend

open Octets

namespace Credentials

def scram (c : Credentials) (nonce : String) (state : Scram.State) : Scram :=
  ⟨c.user, c.password, nonce, state⟩

def firstBare (c : Credentials) (nonce : String) : List Char :=
  (c.scram nonce .initial).firstBare

def first (c : Credentials) (nonce : String) : ClientMessage :=
  .saslInitialResponse Scram.mechanism (ofChars ("n,,".toList ++ c.firstBare nonce))

def salted (c : Credentials) (asked : Scram.ServerFirst) (salt : Octets) : Octets :=
  Hmac.salted (ofString c.password) salt asked.iterations

/-- What both sides sign, by the server's first message and what it asks for. -/
def signed (c : Credentials) (nonce : String) (text : List Char) (asked : Scram.ServerFirst) :
    Octets :=
  ofChars (c.firstBare nonce ++ ",".toList ++ text ++ ",c=biws,r=".toList ++ asked.nonce)

def final (c : Credentials) (nonce : String) (text : List Char) (asked : Scram.ServerFirst)
    (salt : Octets) : ClientMessage :=
  .saslResponse (ofChars ("c=biws,r=".toList ++ asked.nonce ++ ",p=".toList) ++
    Base64.encode (Scram.proof (c.salted asked salt) (c.signed nonce text asked)))

end Credentials

namespace Scram

/-- The server's first message is one that a client with this nonce goes on from. -/
structure FirstTaken (nonce : String) (data : Octets) (text : List Char) (asked : ServerFirst)
    (salt : Octets) : Prop where
  decoded : Utf8.decode data = .ok (String.ofList text)
  read : asked.IsRead text
  nonce_begins : nonce.toList <+: asked.nonce
  salt_decoded : Base64.decode (ofChars asked.salt) = .ok salt

/-- The server's last message reports no error and holds the signature that only a server which
knows the salted password can make. -/
structure LastTaken (salted signed data : Octets) (text : List Char) : Prop where
  decoded : Utf8.decode data = .ok (String.ofList text)
  no_error : ∀ part ∈ cutAt ',' text, ¬"e=".toList <+: part
  signature : ∃ value, (values 'v' text).head? = some value ∧
    Base64.decode (ofChars (trimBlanks value)) =
      .ok (Hmac.sha256 (Hmac.sha256 salted (ofString "Server Key")) signed)

/-! ## One request -/

variable {c : Credentials} {nonce : String} {request : AuthRequest}
  {reply : Option ClientMessage} {next : Scram}

theorem respond_initial_eq_ok_iff :
    (c.scram nonce .initial).respond request = .ok (reply, next) ↔
      (∃ offer, request = .sasl offer) ∧ reply = some (c.first nonce) ∧
        next = c.scram nonce (.firstSent (c.firstBare nonce)) := by
  constructor
  · intro h
    cases request with
    | sasl offer =>
        cases h
        exact ⟨⟨offer, rfl⟩, rfl, rfl⟩
    | _ => cases h
  · rintro ⟨⟨offer, rfl⟩, rfl, rfl⟩
    rfl

omit reply next in
theorem authMessage_eq_signed (text : List Char) (asked : ServerFirst) :
    authMessage (c.firstBare nonce) text asked.nonce = c.signed nonce text asked := by
  have hchars : c.firstBare nonce ++ ',' :: text ++ ',' :: finalWithoutProof asked.nonce =
      c.firstBare nonce ++ ",".toList ++ text ++ ",c=biws,r=".toList ++ asked.nonce := by
    unfold finalWithoutProof
    simp
  exact congrArg ofChars hchars

theorem finalReply_eq (c : Credentials) (nonce : String) (state : State) (text : List Char)
    (asked : ServerFirst) (salt : Octets) :
    (c.scram nonce state).finalReply (c.firstBare nonce) text asked salt =
      (c.final nonce text asked salt,
        c.scram nonce (.finalSent (c.signed nonce text asked) (c.salted asked salt))) := by
  unfold finalReply
  rw [authMessage_eq_signed]
  rfl

theorem respond_firstSent_eq_ok_iff :
    (c.scram nonce (.firstSent (c.firstBare nonce))).respond request = .ok (reply, next) ↔
      ∃ data text asked salt, request = .saslContinue data ∧
        FirstTaken nonce data text asked salt ∧ reply = some (c.final nonce text asked salt) ∧
        next = c.scram nonce (.finalSent (c.signed nonce text asked) (c.salted asked salt)) := by
  constructor
  · intro h
    cases request with
    | saslContinue data =>
        unfold respond at h
        dsimp only [Credentials.scram] at h
        split at h
        · cases h
        next text hdecoded =>
          obtain ⟨r, hfinal, hr⟩ := bind_eq_ok_iff.mp h
          obtain ⟨asked, salt, hread, hnonce, hsalt, rfl⟩ := final_eq_ok_iff.mp hfinal
          have htaken : FirstTaken nonce data text.toList asked salt :=
            ⟨by rw [hdecoded, String.ofList_toList], hread, hnonce, hsalt⟩
          have hreply := finalReply_eq c nonce (.firstSent (c.firstBare nonce)) text.toList asked salt
          rw [Credentials.scram] at hreply
          rw [hreply] at hr
          cases hr
          exact ⟨data, text.toList, asked, salt, rfl, htaken, rfl, rfl⟩
    | _ => cases h
  · rintro ⟨data, text, asked, salt, rfl, htaken, rfl, rfl⟩
    have hfinal : (c.scram nonce (.firstSent (c.firstBare nonce))).final (c.firstBare nonce) text =
        .ok (c.final nonce text asked salt,
          c.scram nonce (.finalSent (c.signed nonce text asked) (c.salted asked salt))) := by
      rw [final_eq_ok_iff]
      exact ⟨asked, salt, htaken.read, htaken.nonce_begins, htaken.salt_decoded,
        (finalReply_eq c nonce _ text asked salt).symm⟩
    unfold respond
    dsimp only [Credentials.scram] at hfinal ⊢
    rw [htaken.decoded]
    dsimp only
    rw [String.toList_ofList, hfinal]
    rfl

theorem lastTaken_iff {salted signed data : Octets} {text : List Char} :
    LastTaken salted signed data text ↔
      Utf8.decode data = .ok (String.ofList text) ∧ verify signed salted text = .ok () := by
  have hletter : "e=".toList = ['e', '='] := by simp
  rw [verify_eq_ok_iff, values_eq_nil_iff]
  unfold serverSignature
  constructor
  · intro h
    exact ⟨h.decoded, fun part hpart => hletter ▸ h.no_error part hpart, h.signature⟩
  · rintro ⟨hdecoded, herror, hsignature⟩
    exact ⟨hdecoded, fun part hpart => hletter.symm ▸ herror part hpart, hsignature⟩

theorem respond_finalSent_eq_ok_iff {signed salted : Octets} :
    (c.scram nonce (.finalSent signed salted)).respond request = .ok (reply, next) ↔
      ∃ data text, request = .saslFinal data ∧ LastTaken salted signed data text ∧
        reply = none ∧ next = c.scram nonce .verified := by
  constructor
  · intro h
    cases request with
    | saslFinal data =>
        unfold respond at h
        dsimp only [Credentials.scram] at h
        split at h
        · cases h
        next text hdecoded =>
          obtain ⟨⟨⟩, hverify, hr⟩ := bind_eq_ok_iff.mp h
          have htaken : LastTaken salted signed data text.toList :=
            lastTaken_iff.mpr ⟨by rw [hdecoded, String.ofList_toList], hverify⟩
          cases hr
          exact ⟨data, text.toList, rfl, htaken, rfl, rfl⟩
    | _ => cases h
  · rintro ⟨data, text, rfl, htaken, rfl, rfl⟩
    obtain ⟨hdecoded, hverify⟩ := lastTaken_iff.mp htaken
    unfold respond
    dsimp only [Credentials.scram]
    rw [hdecoded]
    dsimp only
    rw [String.toList_ofList, hverify]
    rfl

theorem respond_verified_ne_ok :
    (c.scram nonce .verified).respond request ≠ .ok (reply, next) := by
  intro h
  cases request <;> cases h

end Scram

theorem Handler.respond_scram_eq_ok {s : Scram} {request : AuthRequest}
    {reply : Option ClientMessage} {next : Handler}
    (h : (Handler.scram s).respond request = .ok (reply, next)) :
    ∃ t, s.respond request = .ok (reply, t) ∧ next = .scram t := by
  rw [Handler.respond] at h
  generalize s.respond request = r at h ⊢
  obtain fault | ⟨reply', t⟩ := r
  · cases h
  · cases h
    exact ⟨t, rfl, rfl⟩

theorem Handler.respond_scram {s t : Scram} {request : AuthRequest} {reply : Option ClientMessage}
    (h : s.respond request = .ok (reply, t)) :
    (Handler.scram s).respond request = .ok (reply, .scram t) := by
  rw [Handler.respond, h]
  rfl

theorem Handler.respond_password_eq_ok {p : Password} {request : AuthRequest}
    {reply : Option ClientMessage} {next : Handler}
    (h : (Handler.password p).respond request = .ok (reply, next)) : ∃ q, next = .password q := by
  rw [Handler.respond] at h
  generalize p.respond request = r at h
  obtain fault | ⟨reply', q⟩ := r
  · cases h
  · cases h
    exact ⟨q, rfl⟩

theorem Scram.supports_iff {request : AuthRequest} :
    Scram.supports request = true ↔ ∃ offer, request = .sasl offer ∧ Scram.mechanism ∈ offer := by
  cases request <;> simp [Scram.supports]

/-- SCRAM is chosen for a request that offers it. -/
theorem Credentials.handlerFor_offer {c : Credentials} {nonce : String} {offer : List String}
    (hoffer : Scram.mechanism ∈ offer) :
    c.handlerFor nonce (.sasl offer) = .ok (.scram (c.scram nonce .initial)) := by
  rw [handlerFor, if_neg (show ¬Password.supports (.sasl offer) = true from nofun),
    if_pos (Scram.supports_iff.mpr ⟨offer, rfl, hoffer⟩)]
  rfl

theorem Credentials.respond_offer {c : Credentials} {nonce : String} {offer : List String} :
    Authenticator.respond (Handler.scram (c.scram nonce .initial)) (.sasl offer) =
      .ok (some (c.first nonce), .scram (c.scram nonce (.firstSent (c.firstBare nonce)))) :=
  Handler.respond_scram (Scram.respond_initial_eq_ok_iff.mpr ⟨⟨offer, rfl⟩, rfl, rfl⟩)

/-! ## The whole dialogue -/

/-- What a client has heard and said, by the side that answers for it. -/
inductive Dialogue (c : Credentials) (nonce : String) :
    Option Handler → List (Except Fault AuthRequest) → List ClientMessage → Prop
  | unasked : Dialogue c nonce none [] []
  | password (side : Password) (heard : List (Except Fault AuthRequest))
      (said : List ClientMessage) : Dialogue c nonce (some (.password side)) heard said
  | offered {offer : List String} (hoffer : Scram.mechanism ∈ offer) :
      Dialogue c nonce (some (.scram (c.scram nonce (.firstSent (c.firstBare nonce)))))
        [.ok (.sasl offer)] [c.first nonce]
  | challenged {offer : List String} {first : Octets} {text : List Char}
      {asked : Scram.ServerFirst} {salt : Octets} (hoffer : Scram.mechanism ∈ offer)
      (hfirst : Scram.FirstTaken nonce first text asked salt) :
      Dialogue c nonce
        (some (.scram (c.scram nonce
          (.finalSent (c.signed nonce text asked) (c.salted asked salt)))))
        [.ok (.sasl offer), .ok (.saslContinue first)]
        [c.first nonce, c.final nonce text asked salt]
  | proven {offer : List String} {first last : Octets} {text lastText : List Char}
      {asked : Scram.ServerFirst} {salt : Octets} (hoffer : Scram.mechanism ∈ offer)
      (hfirst : Scram.FirstTaken nonce first text asked salt)
      (hlast : Scram.LastTaken (c.salted asked salt) (c.signed nonce text asked) last lastText) :
      Dialogue c nonce (some (.scram (c.scram nonce .verified)))
        [.ok (.sasl offer), .ok (.saslContinue first), .ok (.saslFinal last)]
        [c.first nonce, c.final nonce text asked salt]

namespace Dialogue

variable {c : Credentials} {nonce : String} {request : AuthRequest}
  {reply : Option ClientMessage} {next : Handler}

theorem start {side : Handler} (hside : c.handlerFor nonce request = .ok side)
    (h : side.respond request = .ok (reply, next)) :
    Dialogue c nonce (some next) [.ok request] reply.toList := by
  unfold Credentials.handlerFor at hside
  split at hside
  · cases hside
    obtain ⟨q, rfl⟩ := Handler.respond_password_eq_ok h
    exact .password q _ _
  · split at hside
    next hsupports =>
      cases hside
      obtain ⟨offer, rfl, hoffer⟩ := Scram.supports_iff.mp hsupports
      obtain ⟨t, ht, rfl⟩ := Handler.respond_scram_eq_ok h
      obtain ⟨-, rfl, rfl⟩ := Scram.respond_initial_eq_ok_iff.mp ht
      exact .offered hoffer
    · cases hside

theorem step {side : Handler} {heard : List (Except Fault AuthRequest)}
    {said : List ClientMessage} (hdialogue : Dialogue c nonce (some side) heard said)
    (h : side.respond request = .ok (reply, next)) :
    Dialogue c nonce (some next) (heard ++ [.ok request]) (said ++ reply.toList) := by
  cases hdialogue with
  | password p heard said =>
      obtain ⟨q, rfl⟩ := Handler.respond_password_eq_ok h
      exact .password q _ _
  | offered hoffer =>
      obtain ⟨t, ht, rfl⟩ := Handler.respond_scram_eq_ok h
      obtain ⟨data, text, asked, salt, rfl, hfirst, rfl, rfl⟩ :=
        Scram.respond_firstSent_eq_ok_iff.mp ht
      exact .challenged hoffer hfirst
  | challenged hoffer hfirst =>
      obtain ⟨t, ht, rfl⟩ := Handler.respond_scram_eq_ok h
      obtain ⟨data, text, rfl, hlast, rfl, rfl⟩ := Scram.respond_finalSent_eq_ok_iff.mp ht
      exact .proven hoffer hfirst hlast
  | proven =>
      obtain ⟨t, ht, rfl⟩ := Handler.respond_scram_eq_ok h
      exact absurd ht Scram.respond_verified_ne_ok

end Dialogue

end PgFrontend
