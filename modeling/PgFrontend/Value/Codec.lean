import PgFrontend.Value.Basic
/-!
# Codecs

A codec decodes columns to values and encodes values to parameters. It says beforehand what it
accepts. There are two of the library's own: texts, for the character types in either format, and
blobs, for `bytea` in text format.
-/

namespace PgFrontend

structure Codec where
  label : String
  kind : ValueKind
  canDecode : Format → Oid → ValueKind → Bool
  decode : Octets → Format → ValueKind → Except Fault Value
  canEncode : Value → Bool
  encode : Value → Except Fault Parameter
  encodeNull : Parameter

namespace Codec

def characterTypes : List Oid :=
  [.text, .varchar, .bpchar, .name, .unknown]

def decodeText (octets : Octets) : Except Fault Value :=
  match Utf8.decode octets with
  | .ok s => .ok (.text s)
  | .error flaw => .error (.decode .text (.notText flaw))

def encodeText : Value → Except Fault Parameter
  | .text s => .ok (.ready .text .varchar (Octets.ofString s))
  | value => .error (.encode (.notText value.outline))

/-- The codec for texts. A single octet of type `char` is a text in text format only. -/
def text : Codec where
  label := "StringCodec"
  kind := .text
  canDecode format oid target :=
    target = .text && (characterTypes.contains oid || (oid = .char && format = .text))
  decode octets _ _ := decodeText octets
  canEncode value := value.kind = .text
  encode := encodeText
  encodeNull := .null .text .varchar

def encodeBlob : Value → Except Fault Parameter
  | .blob b => .ok ⟨.text, .bytea, some (.deferred { guard := some b })⟩
  | value => .error (.encode (.notBlob value.outline))

/-- The codec for blobs. A decoded blob keeps the octets of its column, and an encoded one is read
when the parameter's octets are needed. -/
def blob : Codec where
  label := "BlobCodec \x7b allocator: HeapAllocator \x7d"
  kind := .blob
  canDecode format oid target := format = .text && oid = .bytea && target = .blob
  decode octets _ _ := .ok (.blob (.column (some octets)))
  canEncode value := value.kind = .blob
  encode := encodeBlob
  encodeNull := .null .text .bytea

structure Fixed where
  kind : ValueKind
  /-- What is accepted for decoding, where it matters. -/
  target : Option ValueKind := none
  oid : Option Oid := none
  format : Option Format := none
  answer : Except Fault Value
  /-- The kind of values that are accepted for encoding. -/
  encodes : Option ValueKind := none

/-- Whether a thing is the one that is asked for, if one is. -/
def Fixed.matches {α : Type} [DecidableEq α] (wanted : Option α) (found : α) : Bool :=
  wanted.all (· == found)

/-- A codec of fixed answers, which stands in for codecs of an application. -/
def fixed (f : Fixed) : Codec where
  label := "FixedCodec"
  kind := f.kind
  canDecode format oid target :=
    Fixed.matches f.format format && Fixed.matches f.oid oid && Fixed.matches f.target target
  decode _ _ _ := f.answer
  canEncode value := f.encodes = some value.kind
  encode _ := .ok (.ready .binary .name (Octets.ofString "fixed"))
  encodeNull := .null .binary .name

end Codec

end PgFrontend
