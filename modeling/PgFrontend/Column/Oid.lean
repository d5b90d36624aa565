/-!
# Type identifiers

The server names the type of a column by a 32-bit number. The types that the client itself knows
have constructors of their own.
-/

namespace PgFrontend

inductive Oid
  | bool
  | bytea
  | char
  | name
  | int8
  | int2
  | int4
  | text
  | unknown
  | bpchar
  | varchar
  | other (number : UInt32)
  deriving Repr, DecidableEq

namespace Oid

def toUInt32 : Oid → UInt32
  | bool => 16
  | bytea => 17
  | char => 18
  | name => 19
  | int8 => 20
  | int2 => 21
  | int4 => 23
  | text => 25
  | unknown => 705
  | bpchar => 1042
  | varchar => 1043
  | other number => number

/-- The types that have constructors of their own. -/
def known : List Oid :=
  [bool, bytea, char, name, int8, int2, int4, text, unknown, bpchar, varchar]

def ofUInt32 (number : UInt32) : Oid :=
  (known.find? (·.toUInt32 = number)).getD (other number)

@[simp] theorem toUInt32_ofUInt32 (number : UInt32) : (ofUInt32 number).toUInt32 = number := by
  unfold ofUInt32
  cases found : known.find? (·.toUInt32 = number) with
  | none => rfl
  | some oid => simpa using List.find?_some found

def display : Oid → String
  | bool => "bool"
  | bytea => "bytea"
  | char => "char"
  | name => "name"
  | int8 => "int8"
  | int2 => "int2"
  | int4 => "int4"
  | text => "text"
  | unknown => "unknown"
  | bpchar => "bpchar"
  | varchar => "varchar"
  | other number => s!"oid {number.toNat}"

def label : Oid → String
  | bool => "Bool"
  | bytea => "Bytea"
  | char => "Char"
  | name => "Name"
  | int8 => "Int8"
  | int2 => "Int2"
  | int4 => "Int4"
  | text => "Text"
  | unknown => "Unknown"
  | bpchar => "Bpchar"
  | varchar => "Varchar"
  | other number => s!"Other({number.toNat})"

end Oid

end PgFrontend
