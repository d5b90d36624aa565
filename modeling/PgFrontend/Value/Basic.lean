import PgFrontend.Value.Production
/-!
# Values and parameters

The values that an application exchanges with the server, and parameters: a format, a type and,
unless the parameter is null, its octets or the production that makes them.
-/

namespace PgFrontend

inductive Value
  | text (s : String)
  | blob (b : Blob)
  deriving Repr, DecidableEq

namespace Value

def kind : Value → ValueKind
  | text _ => .text
  | blob _ => .blob

def outline : Value → ValueOutline
  | text s => .text s
  | blob _ => .blob

end Value

class FromValue (α : Type) where
  kind : ValueKind
  ofValue : Value → Except Fault α

instance : FromValue String where
  kind := .text
  ofValue
    | .text s => .ok s
    | value => .error (.internal (.wantedText value.outline))

instance : FromValue Blob where
  kind := .blob
  ofValue
    | .blob b => .ok b
    | value => .error (.internal (.wantedBlob value.outline))

inductive ParameterValue
  | ready (octets : Octets)
  | deferred (production : Production)

structure Parameter where
  format : Format
  oid : Oid
  value : Option ParameterValue

namespace Parameter

def ready (format : Format) (oid : Oid) (octets : Octets) : Parameter :=
  ⟨format, oid, some (.ready octets)⟩

def null (format : Format) (oid : Oid) : Parameter :=
  ⟨format, oid, none⟩

def isNull (p : Parameter) : Bool :=
  p.value.isNone

/-- The octets of a parameter, or nothing for a null. There is no result if its production has no
end. -/
def produce (p : Parameter) : Option (Except Fault (Option Octets)) :=
  match p.value with
  | none => some (.ok none)
  | some (.ready octets) => some (.ok (some octets))
  | some (.deferred production) => (production.run true).result?.map fun r => r.map some

def shown (p : Parameter) : String :=
  Quoted.fields "Parameter"
    [("format", p.format.label), ("oid", p.oid.label), ("null", toString p.isNull)]

end Parameter

end PgFrontend
