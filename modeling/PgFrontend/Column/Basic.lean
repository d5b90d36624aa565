import PgFrontend.Wire.Payload
/-!
# Columns of a result

What the server says about the columns of a result before it sends the rows. The payload begins with
the number of columns, which must not be negative.
-/

namespace PgFrontend

open Octets

structure Column where
  name : String
  table : UInt32
  number : Int16
  type : Oid
  typeSize : Int16
  typeModifier : Int32
  format : Format
  deriving Repr, DecidableEq

namespace Column

def parse (s : Octets) : Except Fault (Column × Octets) := do
  let (name, s) ← Payload.text s
  let (f, rest) ← Payload.field .fieldDescription 18 s
  let code := Payload.int16 (f.drop 16)
  match Format.ofCode? code with
  | none => throw (.protocol (.unknownFormat code))
  | some format =>
      return ({
        name
        table := UInt32.ofNat (Payload.slice 0 4 f)
        number := Payload.int16 ((f.drop 4).take 2)
        type := Oid.ofUInt32 (UInt32.ofNat (Payload.slice 6 4 f))
        typeSize := Payload.int16 ((f.drop 10).take 2)
        typeModifier := Payload.int32 ((f.drop 12).take 4)
        format }, rest)

def parseMany : Nat → Octets → Except Fault (List Column)
  | 0, _ => .ok []
  | count + 1, s => do
      let (column, rest) ← parse s
      let columns ← parseMany count rest
      return column :: columns

def parseAll (payload : Octets) : Except Fault (List Column) := do
  let (head, rest) ← Payload.field .rowDescription 2 payload
  let count := Payload.int16 head
  if count < 0 then
    throw (.protocol (.negativeFieldCount count))
  parseMany count.toInt.toNat rest

end Column

end PgFrontend
