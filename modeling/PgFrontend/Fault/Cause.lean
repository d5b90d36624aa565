import PgFrontend.Auth.Request
import PgFrontend.Auth.Stage
import PgFrontend.Column.Format
import PgFrontend.Column.Oid
import PgFrontend.Exchange.Stage
import PgFrontend.Octets.Hex
import PgFrontend.Text.Base64
import PgFrontend.Text.Utf8
/-!
# Causes of failures

Why something went wrong, for each part of the client that can give up, and the wording of every
cause. Each kind of cause has a constructor `other` for what a part outside this library brings
along: a transport, a connector or a codec of the application.
-/

namespace PgFrontend

inductive MessagePart
  | rowDescription
  | fieldDescription
  | dataRow
  | columnLength
  | column
  deriving Repr, DecidableEq

def MessagePart.label : MessagePart → String
  | rowDescription => "RowDescription"
  | fieldDescription => "RowDescription field"
  | dataRow => "DataRow"
  | columnLength => "DataRow column length"
  | column => "DataRow column"

/-- A value as far as a message shows it: texts in full, blobs not at all. -/
inductive ValueOutline
  | text (s : String)
  | blob
  deriving Repr, DecidableEq

def ValueOutline.shown : ValueOutline → String
  | text s => s!"Text({Quoted.text s})"
  | blob => "Blob(..)"

inductive TransferCause
  | earlyEnd
  | noRoom
  | other (text : String)
  deriving Repr, DecidableEq

def TransferCause.message : TransferCause → String
  | earlyEnd => "early eof"
  | noRoom => "write limit reached"
  | other text => text

inductive Violation
  | frameLength (size : Int32)
  | shortAuthRequest
  | missingSalt
  | unterminatedText
  | malformedText (flaw : Utf8.Flaw)
  | truncated (part : MessagePart)
  | negativeFieldCount (count : Int16)
  | negativeColumnCount (count : Int16)
  | shortKeyData
  | unknownFormat (code : Int16)
  | columnCount (values fields : Nat)
  | columnIndex (index columns : Nat)
  | readyTooEarly (stage : Stage)
  | requestAfterOk
  | unexpectedForPassword (request : AuthRequest)
  | unexpectedForScram (request : AuthRequest) (stage : Scram.Stage)
  | unknownIsolation (text : String)
  | other (text : String)
  deriving Repr, DecidableEq

def Violation.message : Violation → String
  | frameLength size => s!"invalid backend message length: {size.toInt}"
  | shortAuthRequest => "auth request too short"
  | missingSalt => "md5 auth salt missing"
  | unterminatedText => "unterminated string in message"
  | malformedText flaw => s!"invalid utf-8 in message: {flaw.message}"
  | truncated part => s!"{part.label} truncated"
  | negativeFieldCount count => s!"negative RowDescription field count: {count.toInt}"
  | negativeColumnCount count => s!"negative DataRow column count: {count.toInt}"
  | shortKeyData => "BackendKeyData too short"
  | unknownFormat code => s!"unknown format code: {code.toInt}"
  | columnCount values fields => s!"DataRow has {values} columns, RowDescription {fields}"
  | columnIndex index columns => s!"column index {index} out of range for {columns} columns"
  | readyTooEarly stage => s!"ReadyForQuery in state {stage.label}"
  | requestAfterOk => "authentication request after AuthenticationOk"
  | unexpectedForPassword request =>
      s!"unexpected {request.shown} during password authentication"
  | unexpectedForScram request stage =>
      s!"unexpected {request.shown} in SCRAM state {stage.label}"
  | unknownIsolation text => s!"unknown isolation level: {Quoted.text text}"
  | other text => text

inductive AuthCause
  | okTooEarly (mechanism : String)
  | firstNotText (flaw : Utf8.Flaw)
  | missingNonce
  | missingSalt
  | badIterations
  | foreignNonce
  | badSalt (flaw : Base64.Flaw)
  | finalNotText (flaw : Utf8.Flaw)
  | serverError (text : String)
  | missingSignature
  | badSignature (flaw : Base64.Flaw)
  | signatureMismatch
  | other (text : String)
  deriving Repr, DecidableEq

def AuthCause.message : AuthCause → String
  | okTooEarly mechanism => s!"AuthenticationOk before {mechanism} exchange completed"
  | firstNotText flaw => s!"SCRAM server-first not utf-8: {flaw.message}"
  | missingNonce => "SCRAM server-first missing nonce (r=)"
  | missingSalt => "SCRAM server-first missing salt (s=)"
  | badIterations => "SCRAM server-first missing or invalid iteration count (i=)"
  | foreignNonce => "SCRAM nonce mismatch: server nonce doesn't include client nonce"
  | badSalt flaw => s!"SCRAM invalid salt base64: {flaw.message}"
  | finalNotText flaw => s!"SCRAM server-final not utf-8: {flaw.message}"
  | serverError text => s!"SCRAM server error: {text}"
  | missingSignature => "SCRAM server-final missing signature (v=)"
  | badSignature flaw => s!"SCRAM invalid server signature base64: {flaw.message}"
  | signatureMismatch => "SCRAM server signature mismatch: server may not know the password"
  | other text => text

inductive UnsupportedMethod
  | request (request : AuthRequest)
  | other (text : String)
  deriving Repr, DecidableEq

/-- The method in words: the names that were offered, the number of an unknown request, or the
request. -/
def UnsupportedMethod.message : UnsupportedMethod → String
  | request (.sasl mechanisms) =>
      s!"SASL mechanisms {Quoted.list (mechanisms.map Quoted.text)}"
  | request (.unsupported code) => s!"auth request code {code.toInt}"
  | request asked => asked.shown
  | other text => text

inductive DecodeCause
  | missingMarker
  | digits (flaw : Hex.Flaw)
  | notText (flaw : Utf8.Flaw)
  | noCodec (format : Format) (oid : Oid) (target : ValueKind)
  | other (text : String)
  deriving Repr, DecidableEq

def DecodeCause.message : DecodeCause → String
  | missingMarker => "malformed BYTEA literal: missing \\x prefix"
  | digits .oddLength => "malformed BYTEA literal: Odd number of digits"
  | digits (.notDigit octet position) =>
      let shown := Quoted.char (Char.ofNat octet.toNat)
      s!"malformed BYTEA literal: Invalid character {shown} at position {position}"
  | notText flaw => s!"invalid utf-8: {flaw.message}"
  | noCodec format oid target =>
      s!"no codec decodes {format.display} {oid.display} as {target.label}"
  | other text => text

inductive EncodeCause
  | notBlob (value : ValueOutline)
  | notText (value : ValueOutline)
  | noCodec (value : ValueOutline)
  | noCodecForNull (kind : ValueKind)
  | other (text : String)
  deriving Repr, DecidableEq

def EncodeCause.message : EncodeCause → String
  | notBlob value => s!"bytea codec cannot encode {value.shown}"
  | notText value => s!"string codec cannot encode {value.shown}"
  | noCodec value => s!"no codec encodes {value.shown}"
  | noCodecForNull kind => s!"no codec encodes {kind.label}"
  | other text => text

/-- A use of the client's own parts that is out of order. -/
inductive Misuse
  | startupTwice (stage : Stage)
  | messageOutOfTurn (tag : UInt8) (stage : Stage)
  | readAfterDiscard
  | sourceDiscarded
  /-- The digits of some octets do not fill the window that they were meant for. -/
  | windowMismatch
  | wantedText (found : ValueOutline)
  | wantedBlob (found : ValueOutline)
  | other (text : String)
  deriving Repr, DecidableEq

def Misuse.message : Misuse → String
  | startupTwice stage => s!"startup sent in state {stage.label}"
  | messageOutOfTurn tag stage =>
      s!"backend message {Quoted.char (Char.ofNat tag.toNat)} in state {stage.label}"
  | readAfterDiscard => "blob read after discard"
  | sourceDiscarded => "bytea source already discarded"
  | windowMismatch => "hex encode: Invalid string length"
  | wantedText found => s!"expected text value, got {found.shown}"
  | wantedBlob found => s!"expected blob value, got {found.shown}"
  | other text => text

end PgFrontend
