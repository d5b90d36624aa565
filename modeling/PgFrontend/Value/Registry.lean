import PgFrontend.Value.Codec
/-!
# Registries

Codecs in the order in which they are asked. The first that accepts a request answers it, also if
the answer is a fault. A null column decodes to nothing, and no codec is asked.
-/

namespace PgFrontend

structure Registry where
  codecs : List Codec

namespace Registry

def builtin : Registry :=
  ⟨[.blob, .text]⟩

def prepend (r : Registry) (codec : Codec) : Registry :=
  ⟨codec :: r.codecs⟩

def decode (r : Registry) (column : Option Octets) (oid : Oid) (format : Format)
    (target : ValueKind) : Except Fault (Option Value) :=
  match column with
  | none => .ok none
  | some octets =>
      match r.codecs.find? (·.canDecode format oid target) with
      | none => .error (.decode oid (.noCodec format oid target))
      | some codec => (codec.decode octets format target).map some

def decodeAs (α : Type) [FromValue α] (r : Registry) (column : Option Octets) (oid : Oid)
    (format : Format) : Except Fault (Option α) := do
  match ← r.decode column oid format (FromValue.kind α) with
  | none => return none
  | some value => return some (← FromValue.ofValue value)

def encode (r : Registry) (value : Value) : Except Fault Parameter :=
  match r.codecs.find? (·.canEncode value) with
  | none => .error (.encode (.noCodec value.outline))
  | some codec => codec.encode value

/-- The null of the first codec for a kind of value. -/
def encodeNull (r : Registry) (kind : ValueKind) : Except Fault Parameter :=
  match r.codecs.find? (·.kind == kind) with
  | none => .error (.encode (.noCodecForNull kind))
  | some codec => .ok codec.encodeNull

def shown (r : Registry) : String :=
  Quoted.list (r.codecs.map Codec.label)

end Registry

end PgFrontend
