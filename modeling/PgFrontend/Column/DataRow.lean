import PgFrontend.Wire.Payload
/-!
# Rows

The values of one row, in the order of their columns. The payload begins with the number of values,
which must not be negative, and each value with its length; a negative length stands for a null,
which has no octets.
-/

namespace PgFrontend.DataRow

open Octets

def parseOne (s : Octets) : Except Fault (Option Octets × Octets) := do
  let (head, s) ← Payload.field .columnLength 4 s
  let size := Payload.int32 head
  if size < 0 then
    return (none, s)
  let (value, rest) ← Payload.field .column size.toInt.toNat s
  return (some value, rest)

def parseMany : Nat → Octets → Except Fault (List (Option Octets))
  | 0, _ => .ok []
  | count + 1, s => do
      let (value, rest) ← parseOne s
      let values ← parseMany count rest
      return value :: values

def parse (payload : Octets) : Except Fault (List (Option Octets)) := do
  let (head, rest) ← Payload.field .dataRow 2 payload
  let count := Payload.int16 head
  if count < 0 then
    throw (.protocol (.negativeColumnCount count))
  parseMany count.toInt.toNat rest

end PgFrontend.DataRow
