import PgFrontend.Auth.Authenticator
import PgFrontend.Digest.Hmac
import PgFrontend.Text.Blank
import PgFrontend.Text.Split
/-!
# SCRAM-SHA-256

The client's side of the mechanism: it names the user and a nonce, proves from the server's salt
and iteration count that it knows the password, and accepts the server only by a signature that
takes the same knowledge. Without channel binding, messages are lists of attributes with commas
between them, each a letter, an equals sign and a value.
-/

namespace PgFrontend

open Octets

namespace Scram

def mechanism : String := "SCRAM-SHA-256"

def replaceEach (old : Char) (new cs : List Char) : List Char :=
  cs.flatMap fun c => if c = old then new else [c]

/-- A user name as an attribute value: no comma, and no equals sign but in an escape. The equals
signs come first, since the escape of a comma has one. -/
def escapeUser (cs : List Char) : List Char :=
  replaceEach ',' ['=', '2', 'C'] (replaceEach '=' ['=', '3', 'D'] cs)

def attribute? (letter : Char) : List Char → Option (List Char)
  | c :: '=' :: value => if c = letter then some value else none
  | _ => none

def values (letter : Char) (message : List Char) : List (List Char) :=
  (cutAt ',' message).filterMap (attribute? letter)

structure ServerFirst where
  nonce : List Char
  /-- The salt, still in base64. -/
  salt : List Char
  iterations : Nat
  deriving Repr, DecidableEq

/-- The server's first message, taken apart. Of several attributes with one letter the last counts.
-/
def ServerFirst.parse (message : List Char) : Except Fault ServerFirst := do
  let some nonce := (values 'r' message).getLast? | throw (.auth .missingNonce)
  let some salt := (values 's' message).getLast? | throw (.auth .missingSalt)
  let some iterations := ((values 'i' message).getLast?.bind word32?).filter (0 < ·)
    | throw (.auth .badIterations)
  return { nonce, salt, iterations }

def clientKey (saltedPassword : Octets) : Octets :=
  Hmac.sha256 saltedPassword (ofString "Client Key")

def serverSignature (saltedPassword authMessage : Octets) : Octets :=
  Hmac.sha256 (Hmac.sha256 saltedPassword (ofString "Server Key")) authMessage

/-- The proof that the client knows the password: its key, hidden under its signature over the
exchange. -/
def proof (saltedPassword authMessage : Octets) : Octets :=
  let key := clientKey saltedPassword
  key.xor (Hmac.sha256 (Sha256.digest key) authMessage)

/-- The client's last message as far as it is signed. -/
def finalWithoutProof (nonce : List Char) : List Char :=
  "c=biws,r=".toList ++ nonce

/-- The messages of an exchange, which both sides sign. -/
def authMessage (firstBare serverFirst nonce : List Char) : Octets :=
  ofChars (firstBare ++ ',' :: serverFirst ++ ',' :: finalWithoutProof nonce)

inductive State
  | initial
  | firstSent (firstBare : List Char)
  | finalSent (authMessage saltedPassword : Octets)
  | verified
  deriving Repr, DecidableEq

def State.stage : State → Stage
  | initial => .initial
  | firstSent _ => .firstSent
  | finalSent .. => .finalSent
  | verified => .verified

end Scram

structure Scram where
  user : String
  password : String
  nonce : String
  state : Scram.State := .initial
  deriving Repr, DecidableEq

namespace Scram

def supports : AuthRequest → Bool
  | .sasl mechanisms => mechanisms.contains mechanism
  | _ => false

/-- The client's first message without the part about channel binding. -/
def firstBare (s : Scram) : List Char :=
  "n=".toList ++ escapeUser s.user.toList ++ ",r=".toList ++ s.nonce.toList

def first (s : Scram) : ClientMessage × Scram :=
  (.saslInitialResponse mechanism (ofChars ("n,,".toList ++ s.firstBare)),
    { s with state := .firstSent s.firstBare })

def final (s : Scram) (firstBare serverFirst : List Char) :
    Except Fault (ClientMessage × Scram) := do
  let asked ← ServerFirst.parse serverFirst
  if !s.nonce.toList.isPrefixOf asked.nonce then
    throw (.auth .foreignNonce)
  match Base64.decode (ofChars asked.salt) with
  | .error flaw => throw (.auth (.badSalt flaw))
  | .ok salt =>
      let signed := authMessage firstBare serverFirst asked.nonce
      let salted := Hmac.salted (ofString s.password) salt asked.iterations
      let data := ofChars (finalWithoutProof asked.nonce ++ ",p=".toList) ++
        Base64.encode (proof salted signed)
      return (.saslResponse data, { s with state := .finalSent signed salted })

def verify (authMessage saltedPassword : Octets) (serverFinal : List Char) :
    Except Fault Unit := do
  if let some text := (values 'e' serverFinal).head? then
    throw (.auth (.serverError (String.ofList text)))
  let some value := (values 'v' serverFinal).head? | throw (.auth .missingSignature)
  match Base64.decode (ofChars (trimBlanks value)) with
  | .error flaw => throw (.auth (.badSignature flaw))
  | .ok signature =>
      if signature ≠ serverSignature saltedPassword authMessage then
        throw (.auth .signatureMismatch)

/-- Answers a request in the one stage where it belongs. After a fault the side is what it was. -/
def respond (s : Scram) (request : AuthRequest) :
    Except Fault (Option ClientMessage × Scram) :=
  match request, s.state with
  | .sasl _, .initial => .ok (some s.first.1, s.first.2)
  | .saslContinue data, .firstSent firstBare =>
      match Utf8.decode data with
      | .error flaw => .error (.auth (.firstNotText flaw))
      | .ok text => do
          let (reply, next) ← s.final firstBare text.toList
          return (some reply, next)
  | .saslFinal data, .finalSent authMessage saltedPassword =>
      match Utf8.decode data with
      | .error flaw => .error (.auth (.finalNotText flaw))
      | .ok text => do
          verify authMessage saltedPassword text.toList
          return (none, { s with state := .verified })
  | _, state => .error (.protocol (.unexpectedForScram request state.stage))

/-- The side as text. Neither password nor keys are shown. -/
def shown (s : Scram) : String :=
  Quoted.someFields "SaslAuthenticationHandler"
    [("user", Quoted.text s.user), ("state", Quoted.text s.state.stage.label)]

end Scram

instance : Authenticator Scram where
  mechanism _ := Scram.mechanism
  isComplete s := s.state.stage = .verified
  respond := Scram.respond

end PgFrontend
