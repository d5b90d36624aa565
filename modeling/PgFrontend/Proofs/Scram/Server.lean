import PgFrontend.Proofs.Scram.Dialogue
import PgFrontend.Proofs.Scram.UserName
/-!
# An honest SCRAM server

The other side of RFC 5802, by what such a server keeps of a password and by what it reads off the
messages that reach it.  It never sees the password, and it builds what both sides sign from the
messages it received and sent, not from the client's state.

The client's messages are taken by this server, and the server's by the client.
-/

namespace PgFrontend

open Octets

namespace Scram

/-- What a server keeps to recognise a user, and what it adds to the user's nonce. -/
structure Server where
  salt : Octets
  iterations : Nat
  storedKey : Octets
  serverKey : Octets
  suffix : List Char

/-- What a server remembers after its first message. -/
structure Challenge where
  clientFirst : List Char
  serverFirst : List Char
  nonce : List Char

namespace Server

def ofPassword (password : String) (salt : Octets) (iterations : Nat) (suffix : String) : Server :=
  let salted := Hmac.salted (ofString password) salt iterations
  { salt, iterations
    storedKey := Sha256.digest (Hmac.sha256 salted (ofString "Client Key"))
    serverKey := Hmac.sha256 salted (ofString "Server Key")
    suffix := suffix.toList }

def first (server : Server) (nonce : List Char) : List Char :=
  "r=".toList ++ nonce ++ ",s=".toList ++ (Base64.text server.salt).toList ++ ",i=".toList ++
    (toString server.iterations).toList

/-- Answers the client's first message, which must not ask for channel binding. -/
def challenge (server : Server) (message : Octets) : Option Challenge :=
  match (Utf8.decode message).toOption.map String.toList with
  | some ('n' :: ',' :: ',' :: clientFirst) =>
      match cutAt ',' clientFirst with
      | ['n' :: '=' :: _, 'r' :: '=' :: clientNonce] =>
          let nonce := clientNonce ++ server.suffix
          some { clientFirst, serverFirst := server.first nonce, nonce }
      | _ => none
  | _ => none

/-- What a server signs, by the two attributes that the client's last message begins with. -/
def signed (sent : Challenge) (binding nonce : List Char) : Octets :=
  ofChars (sent.clientFirst ++ ',' :: sent.serverFirst ++ ',' :: binding ++ ',' :: nonce)

/-- The proof shows a key of which the server keeps the digest. -/
def accepts (server : Server) (signed proof : Octets) : Bool :=
  Sha256.digest (proof.xor (Hmac.sha256 server.storedKey signed)) = server.storedKey

/-- Answers the client's last message with the server's signature, if the proof is right. -/
def confirm (server : Server) (sent : Challenge) (message : Octets) : Option Octets :=
  match (Utf8.decode message).toOption.map fun text => cutAt ',' text.toList with
  | some [binding, nonce, 'p' :: '=' :: written] =>
      match Base64.decode (ofChars written) with
      | .error _ => none
      | .ok proof =>
          if binding = "c=biws".toList ∧ nonce = "r=".toList ++ sent.nonce ∧
              server.accepts (signed sent binding nonce) proof then
            some (ofString "v=" ++
              Base64.encode (Hmac.sha256 server.serverKey (signed sent binding nonce)))
          else none
  | _ => none

end Server

theorem decode_ofChars_toList (cs : List Char) :
    (Utf8.decode (ofChars cs)).toOption.map String.toList = some cs := by
  rw [Utf8.decode_ofChars, Except.toOption, Option.map_some, String.toList_ofList]

variable {c : Credentials} {nonce : String} {server : Server}

namespace Server

def sent (server : Server) (c : Credentials) (nonce : String) : Challenge :=
  let completed := nonce.toList ++ server.suffix
  ⟨c.firstBare nonce, server.first completed, completed⟩

theorem challenge_first (hnonce : ',' ∉ nonce.toList) :
    server.challenge (ofChars ("n,,".toList ++ c.firstBare nonce)) =
      some (server.sent c nonce) := by
  have hparts : cutAt ',' (c.firstBare nonce) =
      ['n' :: '=' :: escapeUser c.user.toList, 'r' :: '=' :: nonce.toList] :=
    cutAt_firstBare (s := c.scram nonce .initial) hnonce
  have hletters : "n,,".toList ++ c.firstBare nonce = 'n' :: ',' :: ',' :: c.firstBare nonce := by
    simp
  unfold challenge
  rw [decode_ofChars_toList, hletters]
  simp only [hparts, sent]

def asked (server : Server) (nonce : String) : ServerFirst :=
  ⟨nonce.toList ++ server.suffix, (Base64.text server.salt).toList, server.iterations⟩

theorem cutAt_first (server : Server) {completed : List Char} (h : ',' ∉ completed) :
    cutAt ',' (server.first completed) =
      ['r' :: '=' :: completed, 's' :: '=' :: (Base64.text server.salt).toList,
        'i' :: '=' :: Nat.toDigits 10 server.iterations] := by
  have hfirst : server.first completed =
      ('r' :: '=' :: completed) ++ ',' :: (('s' :: '=' :: (Base64.text server.salt).toList) ++
        ',' :: ('i' :: '=' :: Nat.toDigits 10 server.iterations)) := by
    unfold first
    simp
  rw [hfirst, cutAt_append, cutAt_append, cutAt_eq_singleton]
  · simp [comma_not_mem_toDigits]
  · simp [Base64.comma_not_mem_text]
  · simp [h]

theorem firstTaken_first (c : Credentials) {nonce : String} {server : Server}
    (hnonce : ',' ∉ nonce.toList) (hsuffix : ',' ∉ server.suffix)
    (hpos : 0 < server.iterations) (hlt : server.iterations < UInt32.size) :
    FirstTaken nonce (ofChars (server.sent c nonce).serverFirst) (server.sent c nonce).serverFirst
      (server.asked nonce) server.salt := by
  have hcompleted : ',' ∉ nonce.toList ++ server.suffix := by
    simp [hnonce, hsuffix]
  have hparts := cutAt_first server hcompleted
  constructor
  · exact Utf8.decode_ofChars _
  · constructor
    · simp [values, hparts, attribute?, asked, sent]
    · simp [values, hparts, attribute?, asked, sent]
    · exact ⟨_, by simp [values, hparts, attribute?, asked, sent], word32?_toDigits hlt⟩
    · exact hpos
  · exact List.prefix_append _ _
  · rw [asked, Base64.ofChars_text, Base64.decode_encode]

/-! ## The proofs of both sides -/

theorem xor_cancel {s t : Octets} (h : s.length = t.length) :
    Octets.xor (Octets.xor s t) t = s := by
  induction s generalizing t with
  | nil => rfl
  | cons a s ih =>
      cases t with
      | nil => cases h
      | cons b t =>
          have htail : Octets.xor (Octets.xor s t) t = s := ih (Nat.succ.inj h)
          have hhead : a ^^^ b ^^^ b = a := by
            rw [UInt8.xor_assoc, UInt8.xor_self, UInt8.xor_zero]
          show (a ^^^ b ^^^ b) :: Octets.xor (Octets.xor s t) t = a :: s
          rw [hhead, htail]

theorem salted_asked (c : Credentials) (nonce suffix : String) (salt : Octets) (iterations : Nat) :
    let server := ofPassword c.password salt iterations suffix
    c.salted (server.asked nonce) server.salt =
      Hmac.salted (ofString c.password) salt iterations := rfl

theorem accepts_proof (password suffix : String) (salt : Octets) (iterations : Nat)
    (message : Octets) :
    (ofPassword password salt iterations suffix).accepts message
      (proof (Hmac.salted (ofString password) salt iterations) message) = true := by
  have hlength (key : Octets) :
      (clientKey key).length = (Hmac.sha256 (Sha256.digest (clientKey key)) message).length := by
    rw [clientKey, Hmac.length_sha256, Hmac.length_sha256]
  rw [accepts, decide_eq_true_eq, proof]
  exact congrArg Sha256.digest (xor_cancel (hlength _))

theorem signed_sent (c : Credentials) (nonce : String) (server : Server) :
    signed (server.sent c nonce) "c=biws".toList
        ("r=".toList ++ (server.sent c nonce).nonce) =
      c.signed nonce (server.sent c nonce).serverFirst (server.asked nonce) := by
  unfold signed Credentials.signed sent asked
  simp

def reply (server : Server) (c : Credentials) (nonce : String) : Octets :=
  ofChars ("c=biws,r=".toList ++ (server.asked nonce).nonce ++ ",p=".toList) ++
    Base64.encode (proof (c.salted (server.asked nonce) server.salt)
      (c.signed nonce (server.sent c nonce).serverFirst (server.asked nonce)))

def confirmation (server : Server) (c : Credentials) (nonce : String) : Octets :=
  ofString "v=" ++ Base64.encode (Hmac.sha256 server.serverKey
    (c.signed nonce (server.sent c nonce).serverFirst (server.asked nonce)))

theorem final_data (c : Credentials) (nonce : String) (server : Server) (key message : Octets) :
    ofChars ("c=biws,r=".toList ++ (server.asked nonce).nonce ++ ",p=".toList) ++
        Base64.encode (proof key message) =
      ofChars ("c=biws".toList ++ ',' :: (("r=".toList ++ (server.sent c nonce).nonce) ++
        ',' :: ('p' :: '=' :: (Base64.text (proof key message)).toList))) := by
  rw [← Base64.ofChars_text, ← ofChars_append, sent, asked]
  congr 1
  simp

theorem confirm_final {suffix : String} {salt : Octets} {iterations : Nat}
    (hserver : server = ofPassword c.password salt iterations suffix)
    (hnonce : ',' ∉ nonce.toList) (hsuffix : ',' ∉ server.suffix) :
    server.confirm (server.sent c nonce) (server.reply c nonce) =
      some (server.confirmation c nonce) := by
  have hcompleted : ',' ∉ (server.sent c nonce).nonce := by
    simp [sent, hnonce, hsuffix]
  have haccepts : server.accepts
      (c.signed nonce (server.sent c nonce).serverFirst (server.asked nonce))
      (proof (c.salted (server.asked nonce) server.salt)
        (c.signed nonce (server.sent c nonce).serverFirst (server.asked nonce))) = true := by
    subst hserver
    rw [salted_asked]
    exact accepts_proof c.password suffix salt iterations _
  have hsigned := signed_sent c nonce server
  rw [reply, final_data c, confirmation]
  generalize proof _ _ = proven at haccepts
  have hparts : cutAt ',' ("c=biws".toList ++ ',' ::
      (("r=".toList ++ (server.sent c nonce).nonce) ++
        ',' :: ('p' :: '=' :: (Base64.text proven).toList))) =
      ["c=biws".toList, "r=".toList ++ (server.sent c nonce).nonce,
        'p' :: '=' :: (Base64.text proven).toList] := by
    rw [cutAt_append, cutAt_append, cutAt_eq_singleton]
    · simp [Base64.comma_not_mem_text]
    · simp [hcompleted]
    · simp
  unfold confirm
  rw [Utf8.decode_ofChars, Except.toOption, Option.map_some, String.toList_ofList, hparts]
  generalize "c=biws".toList = binding at hsigned ⊢
  generalize "r=".toList ++ (server.sent c nonce).nonce = completed at hsigned ⊢
  simp only [Base64.ofChars_text, Base64.decode_encode, hsigned, haccepts, and_self, if_true]

theorem lastTaken_signature (key message : Octets) :
    LastTaken key message (ofString "v=" ++ Base64.encode (serverSignature key message))
      ('v' :: '=' :: (Base64.text (serverSignature key message)).toList) := by
  have hcomma : ',' ∉ 'v' :: '=' :: (Base64.text (serverSignature key message)).toList := by
    simp [Base64.comma_not_mem_text]
  constructor
  · rw [← Base64.ofChars_text, ofString, ← ofChars_append, Utf8.decode_ofChars]
    simp
  · rw [cutAt_eq_singleton hcomma]
    simp
  · refine ⟨(Base64.text (serverSignature key message)).toList, ?_, ?_⟩
    · simp [values, cutAt_eq_singleton hcomma, attribute?]
    · rw [Base64.trimBlanks_text, Base64.ofChars_text, Base64.decode_encode]
      rfl

theorem lastTaken_confirmation (nonce : String) {suffix : String} {salt : Octets}
    {iterations : Nat}
    (hserver : server = ofPassword c.password salt iterations suffix) :
    ∃ text, LastTaken (c.salted (server.asked nonce) server.salt)
      (c.signed nonce (server.sent c nonce).serverFirst (server.asked nonce))
      (server.confirmation c nonce) text := by
  subst hserver
  exact ⟨_, lastTaken_signature _ _⟩

end Server

end Scram

end PgFrontend
